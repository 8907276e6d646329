import MoteLink.Proofs.Reader.Runs
import MoteLink.Reader.Script

/-! Scripted listeners that leave the loops of a reader alone: they add and remove listeners,
deliver packets to each other, ask for a stop or fail. What a source promises, a reader of it with
such listeners promises too. -/

namespace MoteLink

/-- Every action left in the scripts has `P`. -/
def Scripts.Each (P : Action β → Prop) (s : Scripts β) : Prop :=
  ∀ entry ∈ s, ∀ action ∈ entry.2, P action

theorem Scripts.Each.next {P : Action β → Prop} (rest : P .rest) (name : String) {s : Scripts β}
    (h : s.Each P) : P (s.next name).1 ∧ (s.next name).2.Each P := by
  induction s with
  | nil => exact ⟨rest, h⟩
  | cons entry more ih =>
    obtain ⟨n, actions⟩ := entry
    have hfirst := h (n, actions) (List.mem_cons_self ..)
    obtain ⟨haction, hmore⟩ := ih fun entry hm => h entry (List.mem_cons_of_mem _ hm)
    have hskip : Scripts.Each P ((n, actions) :: (Scripts.next name more).2) := by
      intro entry hm
      rcases List.mem_cons.1 hm with rfl | hm
      · exact hfirst
      · exact hmore entry hm
    cases actions with
    | nil =>
      by_cases hn : n = name
      · rw [Scripts.next, if_pos hn]
        exact ⟨rest, h⟩
      · rw [Scripts.next, if_neg hn]
        exact ⟨haction, hskip⟩
    | cons action later =>
      by_cases hn : n = name
      · rw [Scripts.next, if_pos hn]
        refine ⟨hfirst action (List.mem_cons_self ..), fun entry hm => ?_⟩
        rcases List.mem_cons.1 hm with rfl | hm
        · exact fun a ha => hfirst a (List.mem_cons_of_mem _ ha)
        · exact h entry (List.mem_cons_of_mem _ hm)
      · rw [Scripts.next, if_neg hn]
        exact ⟨haction, hskip⟩

namespace Reader
variable {σ : Type}

/-- Does not run the reader, or wait for it. -/
def Step.IsPlain : Step → Prop
  | .add _ | .remove _ | .deliver _ | .requestStop => True
  | .start | .join | .run | .session => False

def IsTame : Action Step → Prop
  | .rest => True
  | .fails fault => fault.isInterrupt = false
  | .step step => step.IsPlain

/-- A reader keeps its settings, no action comes back, and its source goes on as `d` says. -/
structure Heeds (d : Act.Contract σ) (r r' : Scripted σ) : Prop where
  revive : r'.revive = r.revive
  kept : r'.kept = r.kept
  left : r'.audience.left ≤ r.audience.left
  source : d.leads r.source r'.source

/-- What a contract of the source means for a reader: listeners may be heard, and may fail. -/
def upon (d : Act.Contract σ) : Act.Contract (Scripted σ) where
  holds r := r.audience.Each IsTame ∧ d.holds r.source
  leads := Heeds d
  event e := (∃ name packet, e = .heard name packet) ∨ d.event e
  fault f := f.isInterrupt = false ∨ d.fault f
  refl r := ⟨rfl, rfl, Nat.le_refl _, d.refl r.source⟩
  trans h h' := ⟨h'.revive.trans h.revive, h'.kept.trans h.kept, Nat.le_trans h'.left h.left,
    d.trans h.source h'.source⟩

theorem keeps_onSource {d : Act.Contract σ} {x : Act σ α} (h : d.Keeps x) :
    (upon d).Keeps (onSource x) := by
  intro r hr
  have hx := h r.source hr.2
  exact ⟨⟨hr.1, hx.holds⟩, ⟨rfl, rfl, Nat.le_refl _, hx.leads⟩, fun e he => .inr (hx.events e he),
    fun f hf => .inr (hx.faults f hf)⟩

variable [PacketFeed σ]

/-- A contract that the steps of a source keep, opening but for its events, and under which no more
gets left to read. -/
structure Feeds (d : Act.Contract σ) : Prop where
  connect : d.aloud.Keeps PacketFeed.connect
  read : d.Keeps PacketFeed.read
  close : d.Keeps PacketFeed.close
  requestStop : d.Keeps PacketFeed.requestStop
  remaining : ∀ s s', d.leads s s' → PacketFeed.remaining s' ≤ PacketFeed.remaining s

/-- What a listener does after it has logged a packet. -/
def follow (hear : Hearing σ String (Scripts Step)) : Action Step → Act (Scripted σ) Unit
  | .rest => pure ()
  | .fails fault => Act.fail fault
  | .step step => perform hear step

theorem hear_succ (depth : Nat) (name : String) (packet : Bytes) (r : Scripted σ) :
    hear (depth + 1) name packet r =
      (follow (hear depth) (r.audience.next name).1
        { r with audience := (r.audience.next name).2 }).after [.heard name packet] := by
  rw [hear]
  cases haction : (r.audience.next name).1 with
  | rest | fails fault | step step => simp [Act.run_bind, haction, follow, Outcome.after]

theorem performScripted_run (r : Scripted σ) :
    performScripted .run r = run (hear r.audience.left) r := by
  rw [performScripted, Act.run_bind]
  exact Outcome.after_nil _

section
variable {d : Act.Contract σ} (feeds : Feeds d)
include feeds

theorem keeps_perform {hear : Hearing σ String (Scripts Step)}
    (h : ∀ name packet, (upon d).Keeps (hear name packet)) {step : Step} (plain : step.IsPlain) :
    (upon d).Keeps (perform hear step) := by
  cases step with
  | add name => exact .update fun r hr => ⟨hr, rfl, rfl, Nat.le_refl _, d.refl r.source⟩
  | remove name =>
    refine .bind (.look _) fun found => ?_
    cases found with
    | true => exact .update fun r hr => ⟨hr, rfl, rfl, Nat.le_refl _, d.refl r.source⟩
    | false => exact .fail (.inl rfl)
  | deliver packet => exact keeps_deliver h packet
  | requestStop => exact keeps_onSource feeds.requestStop
  | start | join | run | session => exact plain.elim

theorem keeps_hear (depth : Nat) (name : String) (packet : Bytes) :
    (upon d).Keeps (hear depth name packet) := by
  induction depth generalizing name packet with
  | zero => exact .bind (.emit (.inl ⟨name, packet, rfl⟩)) fun _ => .pure ()
  | succ depth ih =>
    intro r hr
    obtain ⟨haction, haudience⟩ := hr.1.next trivial name
    have hfollow : (upon d).Keeps (follow (hear depth) (r.audience.next name).1) := by
      generalize (r.audience.next name).1 = action at haction
      cases action with
      | rest => exact .pure ()
      | fails fault => exact .fail (.inl haction)
      | step step => exact keeps_perform feeds ih haction
    have hafter := hfollow { r with audience := (r.audience.next name).2 } ⟨haudience, hr.2⟩
    rw [hear_succ]
    refine hafter.after ⟨rfl, rfl, (r.audience.left_next name).1, d.refl r.source⟩ fun e he => ?_
    exact .inl ⟨name, packet, List.mem_singleton.1 he⟩

theorem suits_hear (depth : Nat) : Suits (upon d) (hear depth) where
  connect := by
    intro r hr
    have hconnect := feeds.connect r.source hr.2
    exact ⟨⟨hr.1, hconnect.holds⟩, ⟨rfl, rfl, Nat.le_refl _, hconnect.leads⟩, fun _ _ => trivial,
      fun f hf => .inr (hconnect.faults f hf)⟩
  read := keeps_onSource feeds.read
  close := keeps_onSource feeds.close
  hear := keeps_hear feeds depth
  remaining r r' h := feeds.remaining r.source r'.source h.source

end
end Reader
end MoteLink
