import MoteLink.Proofs.Frame.RoundTrip
import MoteLink.Proofs.Link.Packets

/-! Reading a link in many calls. However the bytes of a connection are cut into pieces, and
wherever reads fault between them, the frames read are those of the whole stream. -/

namespace MoteLink

/-- What came of some calls: the result of each, the state they led to, and their trace. -/
structure Act.Calls (σ α : Type) where
  results : List (Except Fault α)
  state : σ
  trace : Trace

/-- Calls an act `n` times in a row, whether it faults or not. -/
def Act.calls (x : Act σ α) : Nat → σ → Act.Calls σ α
  | 0, s => ⟨[], s, []⟩
  | n + 1, s =>
    let o := x s
    let c := calls x n o.state
    ⟨o.result :: c.results, c.state, o.trace ++ c.trace⟩

theorem Act.calls_succ (x : Act σ α) (n : Nat) (s : σ) :
    Act.calls x (n + 1) s =
      ⟨(Act.calls x n s).results ++ [(x (Act.calls x n s).state).result],
        (x (Act.calls x n s).state).state,
        (Act.calls x n s).trace ++ (x (Act.calls x n s).state).trace⟩ := by
  induction n generalizing s with
  | zero => simp [Act.calls]
  | succ n ih =>
    rw [Act.calls, ih]
    simp [Act.calls]

/-- What the calls that did not fault gave. -/
def Act.Calls.gains (c : Act.Calls σ α) : List α := c.results.filterMap Except.toOption

theorem Act.gains_cons (r : Except Fault α) (rest : List (Except Fault α)) :
    (r :: rest).filterMap Except.toOption =
      r.toOption.toList ++ rest.filterMap Except.toOption := by
  cases r <;> rfl

namespace Link
open Answer Signal Receiver

/-- Nothing waits in the link, and nothing is left on the line. -/
def UsedUp (l : Link) : Prop := l.pending = [] ∧ l.connection = some []

theorem Advanced.refl {l : Link} (h : l.Open) : Advanced l [] l :=
  ⟨rfl, rfl, rfl, h, Nat.le_refl _, fun _ hm => hm, id, [], rfl, rfl⟩

theorem weights_eq_zero {answers : List Answer} (h : weights answers = 0) : answers = [] := by
  cases answers with
  | nil => rfl
  | cons a rest => cases a <;> simp [weights, Answer.weight] at h

theorem usedUp_of_weight {l l' : Link} {signals : List Signal} (h : Advanced l signals l')
    (hw : l'.weight ≤ Dial.weights l.recording) : l'.UsedUp := by
  have hscript : l'.connection.getD [] = l'.script := rfl
  rw [Link.weight, hscript, h.recording] at hw
  have hnil : l'.script = [] := weights_eq_zero (by omega)
  exact ⟨List.length_eq_zero_iff.1 (by omega), by rw [h.stays.connected, hnil]⟩

/-- What the calls of an act that yields have come to. -/
structure Called (use : Use) (say : Signal → Trace) (l : Link) (n : Nat) (signals : List Signal)
    (c : Act.Calls Link Bytes) : Prop where
  advanced : Advanced l signals c.state
  effects : c.trace.effects = signals.flatMap say
  sends : c.state.sends = l.sends.drop (use.writes (bodies signals))
  gains : c.gains = use.gains l.sends (bodies signals)
  used : c.state.UsedUp ∨ c.state.weight + n ≤ l.weight
  empty : ∀ fault, c.results.getLast? = some (.error fault) →
    c.state.pending = [] ∨ .error fault ∈ use.given l.sends (bodies signals)
  cause : ∀ fault, .error fault ∈ c.results →
    fault = l.endpoint.ending ∨ .fails fault ∈ l.script ∨
      .error fault ∈ use.given l.sends (bodies signals)

theorem calls_called {x : Act Link Bytes} {use : Use} (say : Endpoint → Signal → Trace)
    (hx : ∀ l : Link, l.Open → ∃ signals, Yields use (say l.endpoint) l signals (x l)) (n : Nat)
    {l : Link} (h : l.Open) :
    ∃ signals, Called use (say l.endpoint) l n signals (Act.calls x n l) := by
  induction n generalizing l with
  | zero =>
    refine ⟨[], Advanced.refl h, rfl, ?_, ?_, .inr (Nat.le_refl _), by simp [Act.calls],
      by simp [Act.calls]⟩
    · exact (congrArg l.sends.drop use.writes_nil).symm
    · exact (congrArg (List.filterMap Except.toOption) (use.given_nil l.sends)).symm
  | succ n ih =>
    obtain ⟨signals, hfirst⟩ := hx l h
    obtain ⟨signals', hrest⟩ := ih hfirst.advanced.stays
    have hgiven : use.given l.sends (bodies (signals ++ signals')) =
        use.given l.sends (bodies signals) ++ use.given (x l).state.sends (bodies signals') := by
      rw [bodies_append, use.given_append, hfirst.sends]
    refine ⟨signals ++ signals', hfirst.advanced.trans hrest.advanced, ?_, ?_, ?_, ?_, ?_, ?_⟩
    · rw [List.flatMap_append, ← hfirst.effects, ← hfirst.advanced.endpoint, ← hrest.effects,
        ← Trace.effects_append]
      rfl
    · rw [bodies_append, use.writes_append, ← List.drop_drop, ← hfirst.sends]
      exact hrest.sends
    · have hgains : use.gains l.sends (bodies (signals ++ signals')) =
          (x l).result.toOption.toList ++ (Act.calls x n (x l).state).gains := by
        rw [Use.gains, hgiven, List.filterMap_append, ← hfirst.gains, hrest.gains]
        rfl
      exact (Act.gains_cons _ _).trans hgains.symm
    -- a call takes weight off the link, unless it found the link used up
    · have hle : (x l).state.UsedUp ∨ (x l).state.weight < l.weight := by
        rcases hfirst.came with ⟨-, hlighter⟩ | ⟨-, fault, -, hstalled⟩
        · exact .inr hlighter
        · exact hstalled.lighter.imp
            (fun hnil => ⟨hstalled.empty, by rw [hfirst.advanced.stays.connected, hnil]⟩) id
      rcases hle with ⟨hp, hc⟩ | hlt
      · refine .inl (usedUp_of_weight hrest.advanced (Nat.le_trans hrest.advanced.weight ?_))
        simp [Link.weight, hp, hc, weights]
      · exact hrest.used.imp id fun hn => by simp only [Act.calls]; omega
    · intro fault hlast
      rw [hgiven]
      cases n with
      | zero =>
        have hfault : (x l).result = .error fault := by simpa [Act.calls] using hlast
        rcases hfirst.came with ⟨hone, -⟩ | ⟨-, fault', hfault', hstalled⟩
        · refine .inr (List.mem_append_left _ ?_)
          rw [hone, hfault]
          exact List.mem_singleton_self _
        · exact .inl hstalled.empty
      | succ n =>
        exact (hrest.empty fault (by simpa [Act.calls] using hlast)).imp id
          (List.mem_append_right _)
    · intro fault hmem
      rw [hgiven]
      rcases List.mem_cons.1 hmem with hhead | htail
      · rcases hfirst.came with ⟨hone, -⟩ | ⟨-, fault', hfault', hstalled⟩
        · refine .inr (.inr (List.mem_append_left _ ?_))
          rw [hone, ← hhead]
          exact List.mem_singleton_self _
        · obtain rfl := Except.error.inj (hhead.trans hfault')
          exact hstalled.cause.imp id .inl
      · rw [← hfirst.advanced.endpoint]
        exact (hrest.cause fault htail).imp id
          (.imp (hfirst.advanced.fails fault) (List.mem_append_right _))

theorem ahead_of_usedUp {l : Link} (h : l.UsedUp) : l.ahead = [] :=
  ahead_of_ended h.1 (by rw [script, h.2]; rfl)

section
variable {use : Use} {say : Signal → Trace} {l : Link} {n : Nat} {signals : List Signal}
  {c : Act.Calls Link Bytes}

theorem Called.usedUp (h : Called use say l n signals c) (hn : l.weight ≤ n) : c.state.UsedUp := by
  rcases h.used with hu | hw
  · exact hu
  · exact usedUp_of_weight h.advanced (by omega)

theorem Called.gains_decode (h : Called use say l n signals c) (hr : l.receiver = {}) :
    c.gains <+: use.gains l.sends (decode l.coming) ∧
      (c.state.UsedUp →
        c.gains = use.gains l.sends (decode l.coming) ∧ decode l.coming = bodies signals) := by
  have hdecode : decode l.coming = bodies signals ++ bodies c.state.ahead := by
    rw [Receiver.decode, ← hr, ← bodies_append, ← h.advanced.ahead]
    rfl
  refine ⟨?_, fun hu => ?_⟩
  · rw [hdecode, Use.gains, use.given_append, List.filterMap_append, h.gains]
    exact List.prefix_append ..
  · have hall : decode l.coming = bodies signals := by
      rw [hdecode, ahead_of_usedUp hu]
      exact List.append_nil _
    exact ⟨by rw [hall, h.gains], hall⟩

end

theorem connect_framed {l₀ l : Link} {t : Trace} (framed : l₀.endpoint.Framed)
    (opened : connect l₀ = ⟨.ok (), l, t⟩) :
    l.receiver = {} ∧ l.pending = [] ∧ l.endpoint = l₀.endpoint := by
  rw [connect_eq framed] at opened
  obtain ⟨endpoint, recording, connection, sends, receiver, pending, stopping⟩ := l₀
  cases recording with
  | nil => simp [dial, Outcome.after] at opened
  | cons d rest =>
    cases d with
    | refused fault => simp [dial, Outcome.after] at opened
    | accepted answers sends =>
      obtain ⟨_, rfl, _⟩ := Outcome.mk.inj opened
      exact ⟨rfl, rfl, rfl⟩

/-- The protocols of the bodies that a notice says were passed over. -/
def passedOver (t : Trace) : List UInt8 :=
  t.notices.filterMap fun | .foreign protocol => some protocol | _ => none

theorem passedOver_append (s t : Trace) : passedOver (s ++ t) = passedOver s ++ passedOver t := by
  simp [passedOver, Trace.notices]

theorem passedOver_echo (e : Endpoint) (signals : List Signal) :
    passedOver (signals.flatMap (echo e)) = (bodies signals).filterMap foreign? := by
  induction signals with
  | nil => rfl
  | cons s rest ih =>
    rw [List.flatMap_cons, passedOver_append, bodies_cons, List.filterMap_append, ih]
    congr 1
    cases s with
    | quiet => rfl
    | dropped cause => rfl
    | body data =>
      cases e <;> cases hs : sequence? data <;> cases hf : foreign? data <;>
        simp [passedOver, echo, body?, Trace.notices, hs, hf, sent]

theorem passedOver_effects (t : Trace) : passedOver t.effects = passedOver t := by
  rw [passedOver, Trace.notices_effects, passedOver]

/-- From a link just opened, frames and packets come whole, once each and in order, in whatever
pieces the bytes come and wherever reads fault between them. A call that faults leaves nothing
unused, and so many calls as the link has weight use everything up. Of the packets only those are
missing whose acknowledgement could not be sent. -/
theorem calls_of_opened {l₀ l : Link} {t : Trace} {answers : List Answer}
    (framed : l₀.endpoint.Framed) (opened : connect l₀ = ⟨.ok (), l, t⟩)
    (connected : l.connection = some answers) (steady : Steady answers) (n : Nat) :
    (let c := Act.calls nextBody n l;
      (l.weight ≤ n → c.state.UsedUp) ∧
      (c.state.UsedUp → c.gains = decode (bytesOf answers)) ∧
      c.gains <+: decode (bytesOf answers) ∧
      ∀ fault, c.results.getLast? = some (.error fault) → c.state.pending = [] ∧
        ∃ came, bytesOf answers = came ++ bytesOf c.state.script ∧
          c.state.receiver = (({} : Receiver).run came).1) ∧
    (let c := Act.calls nextPacket n l;
      (l.weight ≤ n → c.state.UsedUp) ∧
      (c.state.UsedUp →
        c.gains = handedOut l.sends (decode (bytesOf answers)) ∧
        passedOver c.trace = (decode (bytesOf answers)).filterMap foreign?) ∧
      c.gains <+: handedOut l.sends (decode (bytesOf answers)) ∧
      (.error .emptyBody ∈ c.results →
        .fails .emptyBody ∈ answers ∨ some .emptyBody ∈ l.sends)) ∧
    ((∀ fault, some fault ∉ l.sends) →
      handedOut l.sends (decode (bytesOf answers)) =
        (decode (bytesOf answers)).filterMap packet?) ∧
    ∀ body ∈ decode (bytesOf answers), body ≠ [] := by
  obtain ⟨hreceiver, hpending, hendpoint⟩ := connect_framed framed opened
  have hscript : l.script = answers := by rw [script, connected, Option.getD_some]
  have hopen : l.Open := ⟨hendpoint ▸ framed, hscript ▸ connected, hscript ▸ steady⟩
  have hcoming : l.coming = bytesOf answers := by rw [coming, hpending, hscript, List.nil_append]
  refine ⟨?_, ?_, fun clear => handedOut_of_clear clear _, fun body hb => ne_nil_of_mem_bodies hb⟩
  · obtain ⟨signals, hc⟩ :=
      calls_called (fun _ s => report [s]) (fun _ h => nextBody_yields h) n hopen
    have hgains := hc.gains_decode hreceiver
    rw [hcoming, Use.gains_frames] at hgains
    refine ⟨hc.usedUp, fun hu => (hgains.2 hu).1, hgains.1, fun fault hlast => ?_⟩
    have hempty : (Act.calls nextBody n l).state.pending = [] :=
      (hc.empty fault hlast).resolve_right (by simp [Use.frames])
    obtain ⟨came, hcame, hrun⟩ := hc.advanced.taken
    rw [hcoming, coming, hempty, List.nil_append] at hcame
    rw [hreceiver] at hrun
    exact ⟨hempty, came, hcame, by rw [hrun]⟩
  · obtain ⟨signals, hc⟩ := calls_called echo (fun _ h => nextPacket_yields h) n hopen
    have hgains := hc.gains_decode hreceiver
    rw [hcoming] at hgains
    refine ⟨hc.usedUp, fun hu => ?_, hgains.1, fun hmem => ?_⟩
    · obtain ⟨hall, hsignals⟩ := hgains.2 hu
      refine ⟨hall, ?_⟩
      rw [← passedOver_effects, hc.effects, passedOver_echo, hsignals]
    · rcases hc.cause _ hmem with hend | hfails | hrefused
      · cases he : l.endpoint <;> simp [he, Endpoint.ending] at hend
      · exact .inl (hscript ▸ hfails)
      · exact .inr (mem_handed hrefused)

theorem calls_of_opened_torn :
    let stream := Frame.encode [0x45, 1, 2] ++ Frame.encode [0x44, 7, 3]
    let answers : List Answer :=
      [.chunk (stream.take 3), .fails (.outside .timeout "slow"), .chunk [], .chunk (stream.drop 3)]
    let l : Link := { endpoint := .serial "tty" 57600, connection := some answers }
    (Act.calls nextPacket l.weight l).gains = [[1, 2], [3]] := by
  intro stream answers l
  have hopened : connect { endpoint := .serial "tty" 57600, recording := [.accepted answers] } =
      ⟨.ok (), l, [.dialPort "tty" 57600]⟩ := rfl
  have hsteady : Steady answers := by simp [Steady, answers]
  obtain ⟨-, ⟨hused, hgains, -⟩, hclear, -⟩ :=
    calls_of_opened (show (Endpoint.serial "tty" 57600).Framed from trivial) hopened rfl hsteady
      l.weight
  refine (hgains (hused (Nat.le_refl _))).1.trans ((hclear ?_).trans (by decide +kernel))
  exact fun fault hm => absurd hm List.not_mem_nil

end Link
end MoteLink
