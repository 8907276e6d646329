import MoteLink.Proofs.Reader.Playback

/-! Readers that never have more left to read than before. Nothing a source does gives it more, so
whatever listeners do, as long as they do not refill the source either, a run comes to its end by
itself. All scripted listeners are such, those that run the reader once more among them. -/

namespace MoteLink

namespace Act.Contract
variable {c : Contract σ}

theorem Keeps.attempt {x : Act σ α} (h : c.Keeps x) : c.Keeps (Act.attempt x) := fun s hs =>
  ⟨(h s hs).holds, (h s hs).leads, (h s hs).events, nofun⟩

theorem Keeps.ensuring {x : Act σ α} {cleanup : Act σ Unit} (h : c.Keeps x)
    (hc : c.Keeps cleanup) : c.Keeps (Act.ensuring x cleanup) := by
  intro s hs
  have hx := h s hs
  rw [run_ensuring]
  exact hx.ensured (hc _ hx.holds)

end Act.Contract

/-- Nothing done to a source leaves it more to read. -/
class WaningFeed (σ : Type) [PacketFeed σ] : Prop extends FadingFeed σ where
  connect_le (s : σ) : PacketFeed.remaining (PacketFeed.connect s).state ≤ PacketFeed.remaining s
  read_le (s : σ) : PacketFeed.remaining (PacketFeed.read s).state ≤ PacketFeed.remaining s
  close_le (s : σ) : PacketFeed.remaining (PacketFeed.close s).state ≤ PacketFeed.remaining s
  requestStop_le (s : σ) :
    PacketFeed.remaining (PacketFeed.requestStop s).state ≤ PacketFeed.remaining s

namespace Reader
variable {σ ι ν : Type} [PacketFeed σ]

def waning : Act.Contract (Reader σ ι ν) where
  holds _ := True
  leads r r' := r'.remaining ≤ r.remaining
  event _ := True
  fault _ := True
  refl _ := Nat.le_refl _
  trans h h' := Nat.le_trans h' h

theorem keeps_waning {x : Act (Reader σ ι ν) α}
    (h : ∀ r, (x r).state.remaining ≤ r.remaining) : waning.Keeps x := fun r _ =>
  ⟨trivial, h r, fun _ _ => trivial, fun _ _ => trivial⟩

section
variable [WaningFeed σ]

theorem waning_connect : waning.Keeps (onSource PacketFeed.connect : Act (Reader σ ι ν) Unit) :=
  keeps_waning fun r => WaningFeed.connect_le r.source

theorem waning_read : waning.Keeps (onSource PacketFeed.read : Act (Reader σ ι ν) Bytes) :=
  keeps_waning fun r => WaningFeed.read_le r.source

theorem waning_close : waning.Keeps (onSource PacketFeed.close : Act (Reader σ ι ν) Unit) :=
  keeps_waning fun r => WaningFeed.close_le r.source

section
variable {hear : Hearing σ ι ν} (h : ∀ listener packet, waning.Keeps (hear listener packet))
include h

theorem suits_waning : Suits waning hear where
  connect := waning_connect
  read := waning_read
  close := waning_close
  hear := h
  remaining _ _ h := h

theorem waning_pump (n : Nat) : waning.Keeps (pump hear n) := by
  induction n with
  | zero => exact .pure ()
  | succ n ih =>
    refine .bind (.look _) fun stopped => ?_
    cases stopped with
    | true => exact .pure ()
    | false => exact .bind waning_read fun packet => .bind (keeps_deliver h packet) fun _ => ih

theorem waning_session : waning.Keeps (session hear) :=
  .bind waning_connect fun _ => .bind (.look _) fun _ => .ensuring (waning_pump h _) waning_close

theorem waning_rounds (n : Nat) : waning.Keeps (rounds hear n) := by
  have hrecover (fault : Fault) :
      waning.Keeps (recover fault : Act (Reader σ ι ν) Bool) := by
    refine keeps_waning fun r => ?_
    rw [recover_eq]
    split_ifs <;> exact Nat.le_refl _
  induction n with
  | zero => exact .pure ()
  | succ n ih =>
    refine .bind (.look _) fun stopped => ?_
    cases stopped with
    | true => exact .pure ()
    | false =>
      refine .bind (.attempt (waning_session h)) fun result => ?_
      cases result with
      | ok _ => exact ih
      | error fault =>
        refine .bind (hrecover fault) fun again => ?_
        cases again with
        | true => exact ih
        | false => exact .pure ()

theorem waning_run : waning.Keeps (run hear) := .bind (.look _) fun _ => waning_rounds h _

end

/-- Scripted listeners may do anything to a reader but give its source more to read. -/
theorem waning_hear (depth : Nat) (name : String) (packet : Bytes) :
    waning.Keeps (hear depth name packet : Act (Scripted σ) Unit) := by
  induction depth generalizing name packet with
  | zero => exact .bind (.emit trivial) fun _ => .pure ()
  | succ depth ih =>
    refine .bind (.emit trivial) fun _ => .bind (.look _) fun action => ?_
    refine .bind (.update fun r _ => ⟨trivial, Nat.le_refl _⟩) fun _ => ?_
    cases action with
    | rest => exact .pure ()
    | fails fault => exact .fail trivial
    | step step =>
      cases step with
      | add name => exact .update fun r _ => ⟨trivial, Nat.le_refl _⟩
      | remove name =>
        refine .bind (.look _) fun found => ?_
        cases found with
        | true => exact .update fun r _ => ⟨trivial, Nat.le_refl _⟩
        | false => exact .fail trivial
      | deliver packet => exact keeps_deliver ih packet
      | start =>
        refine .bind (.look _) fun worker => ?_
        cases worker with
        | ready =>
          refine .bind (.update fun r _ => ⟨trivial, Nat.le_refl _⟩) fun _ => ?_
          refine .bind (.attempt (waning_run ih)) fun _ => ?_
          exact .update fun r _ => ⟨trivial, Nat.le_refl _⟩
        | running | done => exact .fail trivial
      | join =>
        refine .bind (.look _) fun worker => ?_
        cases worker with
        | ready | running => exact .fail trivial
        | done => exact .pure ()
      | run => exact waning_run ih
      | session => exact waning_session ih
      | requestStop => exact keeps_waning fun r => WaningFeed.requestStop_le r.source

end
end Reader

namespace Playback

theorem close_state (p : Playback) : (close p).state = p := by
  cases hfault : p.closeFault <;> simp [close, failIf, Act.run_bind, hfault, Outcome.after]

theorem requestStop_state (p : Playback) : (requestStop p).state = { p with stopping := true } := by
  rw [requestStop, Act.bind_ok (Act.run_update _ _)]
  exact close_state _

theorem remaining_read (p : Playback) : (read p).state.remaining ≤ p.remaining := by
  cases hitems : p.items with
  | nil => exact read_nil hitems ▸ Nat.le_refl p.remaining
  | cons item rest =>
    have hless : remaining { p with items := rest } ≤ p.remaining := by simp [remaining, hitems]
    rw [read_cons hitems]
    cases item with
    | packet data | fails fault => exact hless
    | stops fault =>
      have hstop : (take (.stops fault) { p with items := rest }).state =
          { p with items := rest, stopping := true } := by
        have hstate := requestStop_state { p with items := rest }
        rw [take, Act.run_bind]
        cases hclosed : requestStop { p with items := rest } with
        | mk result s t =>
          rw [hclosed] at hstate
          cases result <;> exact hstate
      rw [hstop]
      exact hless

instance : WaningFeed Playback where
  connect_le p := by
    change (connect p).state.remaining ≤ p.remaining
    cases hsessions : p.sessions with
    | nil => exact connect_nil hsessions ▸ Nat.le_refl p.remaining
    | cons session rest => exact Nat.le_of_lt (remaining_connect hsessions)
  read_le := remaining_read
  close_le p := Nat.le_of_eq (congrArg remaining (close_state p))
  requestStop_le p := by
    change (requestStop p).state.remaining ≤ p.remaining
    rw [requestStop_state]
    exact Nat.le_refl _

end Playback
end MoteLink
