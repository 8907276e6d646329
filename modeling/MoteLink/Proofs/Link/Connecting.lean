import MoteLink.Proofs.Link.Handling
import MoteLink.Proofs.Link.Opening

/-! What connecting comes to, whatever is recorded: the entry at the front is used up, and whether
the link opens is a matter of that entry alone. So links have less to read each time they are opened
or read. -/

namespace MoteLink.Link
open Answer

theorem receive_of_stuck {size : Nat} {l : Link} {answers : List Answer}
    (held : l.connection = some answers) (stuck : lead answers = []) :
    (receive size l).result.toOption.getD [] = [] := by
  rw [receive, held]
  cases answers with
  | nil => rfl
  | cons answer rest =>
    cases answer with
    | chunk data =>
      cases data with
      | nil => simp [take, Outcome.after, Except.toOption]
      | cons b data => cases stuck
    | fails fault => rfl
    | stops fault =>
      have hstop : (take size (.stops fault) { l with connection := some rest }).result =
          .error fault := rfl
      simp only [Outcome.after, hstop]
      rfl

/-- An exact read gives what it was asked for if that much comes before a read brings nothing. -/
theorem receiveExactly_result (size : Nat) {l : Link} {answers : List Answer}
    (held : l.connection = some answers) :
    (receiveExactly size l).result.toOption = exactly size answers ∧
      ∀ data, (receiveExactly size l).result = .ok data →
        (receiveExactly size l).state.connection.isSome := by
  -- by the bytes still wanted: every chunk that is not empty brings one of them at least
  induction size using Nat.strongRecOn generalizing l answers with
  | ind size ih =>
    cases size with
    | zero =>
      rw [receiveExactly, if_pos rfl]
      exact ⟨rfl, fun _ _ => by rw [held]; rfl⟩
    | succ n =>
      by_cases hstuck : lead answers = []
      · have hnothing : (receive (n + 1) l).result.toOption.getD [] = [] :=
          receive_of_stuck held hstuck
        have hexactly : exactly (n + 1) answers = none := by simp [exactly, hstuck]
        rw [receiveExactly, if_neg (Nat.succ_ne_zero n), hexactly]
        cases hr : receive (n + 1) l with
        | mk result l' t =>
          rw [hr] at hnothing
          cases result with
          | error fault => exact ⟨rfl, fun _ h => by cases h⟩
          | ok data =>
            obtain rfl : data = [] := hnothing
            exact ⟨rfl, fun _ h => by cases h⟩
      · obtain ⟨b, data, later, rfl⟩ : ∃ b data later, answers = .chunk (b :: data) :: later := by
          unfold lead at hstuck
          split at hstuck
          · exact ⟨_, _, _, rfl⟩
          · exact absurd rfl hstuck
        obtain ⟨hresult, hholds⟩ := ih (n - (data.take n).length) (by omega)
          (l := { l with connection := some (leave (data.drop n) later) }) rfl
        rw [receiveExactly_chunk n held, exactly_chunk, ← hresult]
        generalize receiveExactly (n - (data.take n).length) _ = o at hholds ⊢
        obtain ⟨result, l', t⟩ := o
        cases result with
        | error fault => exact ⟨rfl, fun _ h => by cases h⟩
        | ok rest => exact ⟨rfl, fun _ _ => hholds rest rfl⟩

/-- A greeting goes well if it is sent and a version comes that is the right one, and keeps the
connection then. -/
theorem greet_result {l : Link} {host : String} {port : Int} {answers : List Answer}
    (forwarder : l.endpoint = .forwarder host port) (held : l.connection = some answers) :
    ((greet l).result = .ok () ↔ Dial.opens l.endpoint (.accepted answers l.sends)) ∧
      ((greet l).result = .ok () → (greet l).state.connection.isSome) := by
  have hopens : Dial.opens l.endpoint (.accepted answers l.sends) ↔
      l.refusal = none ∧ 2 ≤ (lead answers).length ∧
        (lead answers).take 1 = version.take 1 := by
    rw [forwarder]
    simp [Dial.opens, Dial.greets, refusal, and_assoc]
  have hwrite := write_eq (by rw [held]; rfl : l.connection.isSome) version
  rw [hopens, greet]
  cases hrefusal : l.refusal with
  | some fault =>
    rw [hrefusal] at hwrite
    rw [Act.bind_error hwrite]
    exact ⟨⟨fun h => (by cases h), fun h => by cases h.1⟩, fun h => by cases h⟩
  | none =>
    rw [hrefusal] at hwrite
    obtain ⟨hresult, hholds⟩ := receiveExactly_result 2 (l := { l with sends := l.sends.tail }) held
    rw [exactly] at hresult
    rw [Act.bind_ok hwrite, Outcome.after]
    cases hread : receiveExactly 2 { l with sends := l.sends.tail } with
    | mk result l' t =>
      rw [hread] at hresult hholds
      by_cases hlong : 2 ≤ (lead answers).length
      · rw [if_pos hlong] at hresult
        cases result with
        | error fault => cases hresult
        | ok answer =>
          have hanswer : answer.take 1 = (lead answers).take 1 := by
            rw [Option.some.inj hresult, List.take_take]
            rfl
          rw [Act.bind_ok hread, hanswer]
          by_cases hversion : (lead answers).take 1 = version.take 1
          · rw [if_neg (not_not_intro hversion)]
            exact ⟨⟨fun _ => ⟨rfl, hlong, hversion⟩, fun _ => rfl⟩, fun _ => hholds answer rfl⟩
          · obtain ⟨u, hclose⟩ := close_unheld l'
            rw [if_pos hversion, Act.bind_ok hclose]
            exact ⟨⟨fun h => (by cases h), fun h => absurd h.2.2 hversion⟩, fun h => by cases h⟩
      · rw [if_neg hlong] at hresult
        cases result with
        | error fault =>
          rw [Act.bind_error hread]
          exact ⟨⟨fun h => (by cases h), fun h => absurd h.2.1 hlong⟩, fun h => by cases h⟩
        | ok answer => cases hresult

/-- What connecting comes to. `t` is what happens after the dial. -/
structure Connected (l : Link) (result : Except Fault Unit) (l' : Link) (t : Trace) : Prop where
  endpoint : l'.endpoint = l.endpoint
  recording : l'.recording = l.recording.tail
  dials : t.dials = 0
  opens_iff : result = .ok () ↔ ∃ d ∈ l.recording.head?, d.opens l.endpoint
  opened : result = .ok () → t.count .close = 0 ∧ l'.held = 1
  same : (∀ d ∈ l.recording.head?, d.isAccepted = false) → l'.connection = l.connection
  weight : l'.weight ≤ l.weight
  lighter : (∀ fault, result = .error fault → fault.isLink) → l'.weight < l.weight

theorem accepted_or_shut (recording : Recording) :
    (∃ answers sends later, recording = .accepted answers sends :: later) ∨
      ∀ d ∈ recording.head?, d.isAccepted = false := by
  cases recording with
  | nil => simp
  | cons d later =>
    cases d with
    | refused fault => simp [Dial.isAccepted]
    | accepted answers sends => exact .inl ⟨answers, sends, later, rfl⟩

theorem weight_tail (l : Link) :
    { l with recording := l.recording.tail }.weight ≤ l.weight ∧
      (l.recording ≠ [] → { l with recording := l.recording.tail }.weight < l.weight) := by
  cases hrecording : l.recording with
  | nil => simp [Link.weight, hrecording]
  | cons d later =>
    have hpos : 0 < d.weight := by cases d <;> simp [Dial.weight]
    simp only [Link.weight, hrecording, List.tail_cons, Dial.weights]
    exact ⟨by omega, fun _ => by omega⟩

/-- A dial that meets with no connection takes its entry and changes nothing else. -/
theorem dial_shut {l : Link} (shut : ∀ d ∈ l.recording.head?, d.isAccepted = false) :
    ∃ fault, dial l = ⟨.error fault, { l with recording := l.recording.tail }, []⟩ ∧
      (l.recording = [] → fault = .exhausted) := by
  obtain ⟨endpoint, recording, connection, sends, receiver, pending, stopping⟩ := l
  cases recording with
  | nil => exact ⟨.exhausted, rfl, fun _ => rfl⟩
  | cons d later =>
    cases d with
    | refused fault => exact ⟨fault, rfl, fun h => by cases h⟩
    | accepted answers => exact absurd (shut _ rfl) (by simp [Dial.isAccepted])

theorem dial_accepted {l : Link} {answers : List Answer} {sends : List (Option Fault)}
    {later : Recording} (h : l.recording = .accepted answers sends :: later) :
    dial l = ⟨.ok (), { l with recording := later, connection := some answers, sends }, []⟩ ∧
      { l with recording := later, connection := some answers, sends }.weight < l.weight := by
  refine ⟨by rw [dial, h], ?_⟩
  simp only [Link.weight, h, Dial.weights, Dial.weight, Option.getD_some]
  omega

/-- `m` is the link before the dial, and `k` what is done after one that was accepted. -/
theorem connected_of_dial {l m : Link} {k : Act Link Unit} (endpoint : m.endpoint = l.endpoint)
    (recording : m.recording = l.recording) (connection : m.connection = l.connection)
    (weight : m.weight ≤ l.weight) (handles : handling.Every k)
    (opens : ∀ answers (n : Link), n.endpoint = l.endpoint → n.connection = some answers →
      ((k n).result = .ok () ↔ Dial.opens l.endpoint (.accepted answers n.sends)) ∧
        ((k n).result = .ok () → (k n).state.connection.isSome)) :
    Connected l ((dial >>= fun _ => k) m).result ((dial >>= fun _ => k) m).state
      ((dial >>= fun _ => k) m).trace := by
  rcases accepted_or_shut m.recording with ⟨answers, sends, later, hrecording⟩ | hshut
  · obtain ⟨hdial, hlighter⟩ := dial_accepted hrecording
    have hhandled := handles { m with recording := later, connection := some answers, sends }
    obtain ⟨hopens, hholds⟩ := opens answers
      { m with recording := later, connection := some answers, sends } endpoint rfl
    rw [Act.bind_ok hdial, Outcome.after_nil]
    rw [recording] at hrecording
    generalize k { m with recording := later, connection := some answers, sends } = o
      at hhandled hopens hholds ⊢
    have hless : o.state.weight < l.weight :=
      Nat.lt_of_le_of_lt hhandled.weight (Nat.lt_of_lt_of_le hlighter weight)
    refine ⟨hhandled.endpoint.trans endpoint, ?_, hhandled.dials, ?_, fun hok => ?_, fun h => ?_,
      Nat.le_of_lt hless, fun _ => hless⟩
    · rw [hhandled.recording, hrecording, List.tail_cons]
    · simp [hrecording, hopens]
    · have hheld : o.state.held = 1 := if_pos (hholds hok)
      have hcloses : o.trace.count .close + o.state.held = 1 := hhandled.closes
      exact ⟨by omega, hheld⟩
    · rw [hrecording] at h
      exact absurd (h _ rfl) (by simp [Dial.isAccepted])
  · obtain ⟨fault, hdial, hexhausted⟩ := dial_shut hshut
    obtain ⟨hle, hlt⟩ := weight_tail m
    rw [Act.bind_error hdial]
    rw [recording] at hshut
    refine ⟨endpoint, congrArg List.tail recording, rfl, ⟨fun h => (by cases h), ?_⟩,
      fun h => (by cases h), fun _ => connection, Nat.le_trans hle weight, fun hlink => ?_⟩
    · rintro ⟨d, hd, hopens⟩
      have howned := Dial.owned_of_opens hopens
      simp [Dial.owned, hshut d hd] at howned
    · refine Nat.lt_of_lt_of_le (hlt fun hnil => ?_) weight
      rw [hexhausted hnil] at hlink
      exact absurd (hlink _ rfl) (by decide)

theorem connect_connected (l : Link) :
    ∃ result l' t, connect l = ⟨result, l', dialling l.endpoint :: t⟩ ∧
      Connected l result l' t := by
  have framed (h : l.endpoint.Framed) : ∃ result l' t,
      connect l = ⟨result, l', dialling l.endpoint :: t⟩ ∧ Connected l result l' t := by
    have hopens (answers : List Answer) (sends : List (Option Fault)) :
        Dial.opens l.endpoint (.accepted answers sends) := by
      cases he : l.endpoint with
      | serial device baud | network host port => rfl
      | forwarder host port => exact (he ▸ h).elim
    have hconnected := connected_of_dial (l := l) (m := { l with receiver := {}, pending := [] })
      (k := pure ()) rfl rfl rfl (by simp [weight]) (.pure ()) fun answers n _ held =>
        ⟨⟨fun _ => hopens answers n.sends, fun _ => rfl⟩,
          fun _ => Option.isSome_iff_exists.2 ⟨_, held⟩⟩
    rw [show (dial >>= fun _ => pure ()) = dial from Act.bind_pure dial] at hconnected
    exact ⟨_, _, _, connect_eq h, hconnected⟩
  cases he : l.endpoint with
  | serial device baud => exact he ▸ framed (he ▸ trivial)
  | network host port => exact he ▸ framed (he ▸ trivial)
  | forwarder host port =>
    have hconnect : connect l = ((dial >>= fun _ => greet) l).after [dialling l.endpoint] := by
      rw [connect, Act.bind_ok (Act.run_look _ _), Outcome.after_nil, he]
      rfl
    have hconnected := connected_of_dial (l := l) rfl rfl rfl (Nat.le_refl _) carries_handling.greet
      fun answers n endpoint held => endpoint ▸ greet_result (endpoint.trans he) held
    exact he ▸ ⟨_, _, _, hconnect, hconnected⟩

theorem weight_nextPacket {l l' : Link} {packet : Bytes} {t : Trace}
    (h : nextPacket l = ⟨.ok packet, l', t⟩) : l'.weight < l.weight := by
  fun_induction nextPacket l generalizing t with
  | case1 => cases h
  | case2 => cases h
  | case3 l protocol rest l₁ u hb data hc =>
    obtain ⟨-, rfl, -⟩ := Outcome.mk.inj h
    exact weight_nextBody hb
  | case4 l protocol rest l₁ u hb sequence data hc =>
    obtain ⟨-, hstate, -⟩ := Outcome.mk.inj h
    have hwritten := Act.Tracking.Every.bind (carries_handling.write (Frame.ack sequence.toNat))
      (fun _ => .pure data) l₁
    exact hstate ▸ Nat.lt_of_le_of_lt hwritten.weight (weight_nextBody hb)
  | case5 l protocol rest l₁ u hb p hc ih =>
    obtain ⟨hresult, hstate, -⟩ := Outcome.mk.inj h
    have hrest : nextPacket l₁ = ⟨.ok packet, l', (nextPacket l₁).trace⟩ := by
      rw [← hresult, ← hstate]
    exact Nat.lt_trans (ih hrest) (weight_nextBody hb)

theorem weight_readMeasured {l l' : Link} {packet : Bytes} {t : Trace}
    (h : readMeasured l = ⟨.ok packet, l', t⟩) : l'.weight < l.weight := by
  -- the byte that holds the length has come off the line
  have hhead : ∀ {head : Bytes} {l₁ : Link} {u : Trace},
      receiveExactly 1 l = ⟨.ok head, l₁, u⟩ → l₁.weight < l.weight := by
    intro head l₁ u hone
    rw [receiveExactly, if_neg Nat.one_ne_zero] at hone
    cases hreceive : receive 1 l with
    | mk result l₂ v =>
      rw [hreceive] at hone
      rcases result with fault | (_ | ⟨b, data⟩)
      · cases hone
      · cases hone
      · have hlighter := weight_receive Nat.one_pos (List.cons_ne_nil b data) hreceive
        obtain ⟨-, hstate, -⟩ := Outcome.mk.inj hone
        have hrest := (carries_handling.receiveExactly (1 - (data.length + 1)) l₂).weight
        exact hstate ▸ Nat.lt_of_le_of_lt hrest (Nat.lt_of_le_of_lt (Nat.le_add_right ..) hlighter)
  rw [readMeasured] at h
  cases hone : receiveExactly 1 l with
  | mk result l₁ u =>
    cases result with
    | error fault =>
      rw [Act.bind_error hone] at h
      cases h
    | ok head =>
      rw [Act.bind_ok hone] at h
      obtain ⟨-, hstate, -⟩ := Outcome.mk.inj h
      refine Nat.lt_of_le_of_lt ?_ (hhead hone)
      rw [← hstate]
      split
      · exact (carries_handling.receiveExactly _ l₁).weight
      · exact Nat.le_refl _

theorem weight_read {l l' : Link} {packet : Bytes} {t : Trace}
    (h : read l = ⟨.ok packet, l', t⟩) : l'.weight < l.weight := by
  rw [read] at h
  split at h
  · exact weight_nextPacket h
  · exact weight_nextPacket h
  · exact weight_readMeasured h

instance : WaningFeed Link where
  connect_lt l h := by
    obtain ⟨result, l', t, hconnect, hconnected⟩ := connect_connected l
    change ∀ fault, (connect l).result = .error fault → fault.isLink at h
    change (connect l).state.weight < l.weight
    rw [hconnect] at h ⊢
    exact hconnected.lighter h
  read_lt l packet h := by
    change (read l).result = .ok packet at h
    have hread : read l = ⟨.ok packet, (read l).state, (read l).trace⟩ := by rw [← h]
    exact weight_read hread
  connect_le l := by
    obtain ⟨result, l', t, hconnect, hconnected⟩ := connect_connected l
    change (connect l).state.weight ≤ l.weight
    rw [hconnect]
    exact hconnected.weight
  read_le l := (carries_handling.read l).weight
  close_le := weight_close
  requestStop_le l := (handling_requestStop l).weight

end MoteLink.Link
