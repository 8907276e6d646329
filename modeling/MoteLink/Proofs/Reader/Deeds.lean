import MoteLink.Proofs.Reader.Waning

/-! What listeners may do that leave the loops of a reader alone: rest, fault, remark, remember,
change who listens, deliver packets to each other and ask for a stop, any number of times and in any
order. Scripted listeners whose steps are plain do nothing else. -/

namespace MoteLink

/-- What is seen of those who hear a packet. -/
def Event.isRemark : Event → Bool
  | .heard .. | .delivered .. | .clock | .print _ | .flush => true
  | _ => false

namespace Reader
variable {σ ι ν : Type} [PacketFeed σ]

/-- What may come of a listener's call. A listener may catch faults of what it does itself. -/
inductive Deeds : Reader σ ι ν → Outcome (Reader σ ι ν) Unit → Prop where
  | rest {r} : Deeds r ⟨.ok (), r, []⟩
  | fail {r} (fault : Fault) : Deeds r ⟨.error fault, r, []⟩
  | remark {r event} (remark : event.isRemark) : Deeds r ⟨.ok (), r, [event]⟩
  | remember {r} (audience : ν) : Deeds r ⟨.ok (), { r with audience }, []⟩
  | register {r} (listeners : List ι) : Deeds r ⟨.ok (), { r with listeners }, []⟩
  | stop {r} : Deeds r (requestStop r)
  | next {r r' t o} (first : Deeds r ⟨.ok (), r', t⟩) (second : Deeds r' o) : Deeds r (o.after t)
  | caught {r r' fault t o} (first : Deeds r ⟨.error fault, r', t⟩) (second : Deeds r' o) :
      Deeds r (o.after t)

/-- Listeners who do such things only, as long as what they keep is as `P` says. -/
structure Gentle (P : ν → Prop) (hear : Hearing σ ι ν) : Prop where
  deeds : ∀ listener packet r, P r.audience → Deeds r (hear listener packet r)
  stays : ∀ listener packet r, P r.audience → P (hear listener packet r).state.audience

/-- More is never left to read, and what a reader was told to do about faults stays. -/
def polite (P : ν → Prop) : Act.Contract (Reader σ ι ν) where
  holds r := P r.audience
  leads r r' := r'.remaining ≤ r.remaining ∧ r'.revive = r.revive
  event _ := True
  fault _ := True
  refl _ := ⟨Nat.le_refl _, rfl⟩
  trans h h' := ⟨Nat.le_trans h'.1 h.1, h'.2.trans h.2⟩

theorem Deeds.polite [WaningFeed σ] {r : Reader σ ι ν} {o : Outcome (Reader σ ι ν) Unit}
    (h : Deeds r o) : o.state.remaining ≤ r.remaining ∧ o.state.revive = r.revive := by
  induction h with
  | rest | fail | remark | remember | register => exact ⟨Nat.le_refl _, rfl⟩
  | @stop r => exact ⟨WaningFeed.requestStop_le r.source, rfl⟩
  | next first second ih ih' => exact ⟨Nat.le_trans ih'.1 ih.1, ih'.2.trans ih.2⟩
  | caught first second ih ih' => exact ⟨Nat.le_trans ih'.1 ih.1, ih'.2.trans ih.2⟩

theorem keeps_polite {P : ν → Prop} {x : Act σ α}
    (h : ∀ s, PacketFeed.remaining (x s).state ≤ PacketFeed.remaining s) :
    (polite P).Keeps (onSource x : Act (Reader σ ι ν) α) := fun r holds =>
  ⟨holds, ⟨h r.source, rfl⟩, fun _ _ => trivial, fun _ _ => trivial⟩

section
variable {P : ν → Prop} {hear : Hearing σ ι ν} (gentle : Gentle P hear)
include gentle

theorem Gentle.deliver (packet : Bytes) {r : Reader σ ι ν} (holds : P r.audience) :
    Deeds r (Reader.deliver hear packet r) ∧ P (Reader.deliver hear packet r).state.audience := by
  have heach (listeners : List ι) (r : Reader σ ι ν) (holds : P r.audience) :
      Deeds r (Act.each (hear · packet) listeners r) ∧
        P (Act.each (hear · packet) listeners r).state.audience := by
    induction listeners generalizing r with
    | nil => exact ⟨.rest, holds⟩
    | cons listener rest ih =>
      have hdeeds := gentle.deeds listener packet r holds
      have hstays := gentle.stays listener packet r holds
      rw [Act.each, Act.run_bind]
      cases hheard : hear listener packet r with
      | mk result r' t =>
        rw [hheard] at hdeeds hstays
        cases result with
        | error fault => exact ⟨hdeeds, hstays⟩
        | ok _ => exact ⟨.next hdeeds (ih r' hstays).1, (ih r' hstays).2⟩
  exact heach r.listeners r holds

variable [WaningFeed σ]

theorem suits_polite : Suits (polite P) hear where
  connect := keeps_polite WaningFeed.connect_le
  read := keeps_polite WaningFeed.read_le
  close := keeps_polite WaningFeed.close_le
  hear := fun listener packet r holds =>
    ⟨gentle.stays listener packet r holds, (gentle.deeds listener packet r holds).polite,
      fun _ _ => trivial, fun _ _ => trivial⟩
  remaining _ _ h := h.1

end

/-- Leaves the loops of the reader alone, and may fault in any way. -/
def IsMild : Action Step → Prop
  | .rest | .fails _ => True
  | .step step => step.IsPlain

theorem gentle_hear (depth : Nat) :
    Gentle (Scripts.Each IsMild) (hear depth : Hearing σ String (Scripts Step)) := by
  have hboth : ∀ name packet (r : Scripted σ), r.audience.Each IsMild →
      Deeds r (hear depth name packet r) ∧
        (hear depth name packet r).state.audience.Each IsMild := by
    induction depth with
    | zero => exact fun name packet r mild => ⟨.remark rfl, mild⟩
    | succ depth ih =>
      intro name packet r mild
      obtain ⟨haction, haudience⟩ := mild.next trivial name
      have hgentle : Gentle (Scripts.Each IsMild)
          (hear depth : Hearing σ String (Scripts Step)) :=
        ⟨fun name packet r h => (ih name packet r h).1,
          fun name packet r h => (ih name packet r h).2⟩
      rw [hear_succ]
      generalize r.audience.next name = taken at haction haudience ⊢
      obtain ⟨action, scripts⟩ := taken
      have htaken : Deeds r ⟨.ok (), { r with audience := scripts }, [.heard name packet]⟩ :=
        .next (.remark rfl) (.remember scripts)
      -- the listener has logged the packet and forgotten its action before it acts
      have hfollow : Deeds { r with audience := scripts }
            (follow (hear depth) action { r with audience := scripts }) ∧
          (follow (hear depth) action { r with audience := scripts }).state.audience.Each
            IsMild := by
        cases action with
        | rest => exact ⟨.rest, haudience⟩
        | fails fault => exact ⟨.fail fault, haudience⟩
        | step step =>
          cases step with
          | add name => exact ⟨.register _, haudience⟩
          | remove name =>
            rw [follow, perform, remove, Act.bind_ok (Act.run_look _ _)]
            split
            · exact ⟨.register _, haudience⟩
            · exact ⟨.fail _, haudience⟩
          | deliver packet => exact hgentle.deliver packet haudience
          | requestStop => exact ⟨.stop, haudience⟩
          | start | join | run | session => exact haction.elim
      exact ⟨.next htaken hfollow.1, hfollow.2⟩
  exact ⟨fun name packet r h => (hboth name packet r h).1,
    fun name packet r h => (hboth name packet r h).2⟩

end Reader
end MoteLink
