import MoteLink.Proofs.Reader.Listeners
import MoteLink.Reader.Playback

/-! Recorded sessions as a source: each opening takes one, and what one of them faults with is of
the recording. -/

namespace MoteLink

def Item.Uninterrupted : Item → Prop
  | .packet _ => True
  | .fails fault | .stops fault => fault.isInterrupt = false

structure Session.Uninterrupted (s : Session) : Prop where
  openFault : ∀ fault ∈ s.openFault, fault.isInterrupt = false
  items : ∀ item ∈ s.items, item.Uninterrupted
  closeFault : ∀ fault ∈ s.closeFault, fault.isInterrupt = false

namespace Playback

structure Uninterrupted (p : Playback) : Prop where
  items : ∀ item ∈ p.items, item.Uninterrupted
  closeFault : ∀ fault ∈ p.closeFault, fault.isInterrupt = false
  sessions : ∀ session ∈ p.sessions, session.Uninterrupted

/-- Nothing is opened, nothing interrupts, and a stop once requested stays so. -/
def unbroken : Act.Contract Playback where
  holds := Uninterrupted
  leads p p' := p'.remaining ≤ p.remaining ∧ (p.stopping → p'.stopping)
  event e := e = .close
  fault f := f.isInterrupt = false
  refl _ := ⟨Nat.le_refl _, id⟩
  trans h h' := ⟨Nat.le_trans h'.1 h.1, h'.2 ∘ h.2⟩

theorem keeps_failIf {c : Act.Contract σ} {fault? : Option Fault} (h : ∀ f ∈ fault?, c.fault f) :
    c.Keeps (failIf fault?) := by
  cases fault? with
  | none => exact .pure ()
  | some fault => exact .fail (h fault rfl)

theorem keeps_close : unbroken.Keeps close := by
  intro p hp
  have hfault : unbroken.Keeps (failIf p.closeFault : Act Playback Unit) :=
    keeps_failIf hp.closeFault
  exact (hfault p hp).after (unbroken.refl p) fun e he => List.mem_singleton.1 he

theorem keeps_requestStop : unbroken.Keeps requestStop := by
  have hstop : unbroken.Keeps (Act.update fun p => { p with stopping := true }) :=
    .update fun p hp => ⟨⟨hp.items, hp.closeFault, hp.sessions⟩, Nat.le_refl _, fun _ => rfl⟩
  exact .bind hstop fun _ => keeps_close

theorem read_nil {p : Playback} (h : p.items = []) : read p = ⟨.error .unplugged, p, []⟩ := by
  simp [read, Act.run_bind, h]

def take : Item → Act Playback Bytes
  | .packet data => pure data
  | .fails fault => Act.fail fault
  | .stops fault => do
    requestStop
    Act.fail fault

theorem read_cons {p : Playback} {item : Item} {rest : List Item} (h : p.items = item :: rest) :
    read p = take item { p with items := rest } := by
  cases item with
  | packet data | fails fault | stops fault => simp [read, take, Act.run_bind, h, Outcome.after]

theorem keeps_take {item : Item} (h : item.Uninterrupted) : unbroken.Keeps (take item) := by
  cases item with
  | packet data => exact .pure data
  | fails fault => exact .fail h
  | stops fault => exact .bind keeps_requestStop fun _ => .fail h

theorem keeps_read : unbroken.Keeps read := by
  intro p hp
  cases hitems : p.items with
  | nil =>
    rw [read_nil hitems]
    exact Act.Contract.Keeps.fail rfl p hp
  | cons item rest =>
    have hmem : ∀ later ∈ item :: rest, later.Uninterrupted := hitems ▸ hp.items
    have htail : Uninterrupted { p with items := rest } :=
      ⟨fun later hl => hmem later (List.mem_cons_of_mem _ hl), hp.closeFault, hp.sessions⟩
    have htake := keeps_take (hmem item (List.mem_cons_self ..)) _ htail
    have hless : remaining { p with items := rest } ≤ p.remaining := by
      simp [remaining, hitems]
    rw [read_cons hitems]
    exact htake.after (s := p) (t := []) ⟨hless, id⟩ fun _ he => absurd he List.not_mem_nil

/-- The session at the front is used up, and its items are read only if it opens. -/
theorem connect_cons {p : Playback} {session : Session} {rest : List Session}
    (h : p.sessions = session :: rest) :
    connect p =
      match session.openFault with
      | some fault => ⟨.error fault,
          { p with sessions := rest, closeFault := session.closeFault }, [.openSource]⟩
      | none => ⟨.ok (),
          { p with items := session.items, sessions := rest, closeFault := session.closeFault },
          [.openSource]⟩ := by
  cases hfault : session.openFault with
  | none | some fault => simp [connect, Act.run_bind, h, hfault, failIf, Outcome.after]

theorem connect_nil {p : Playback} (h : p.sessions = []) :
    connect p = ⟨.error .exhausted, p, [.openSource]⟩ := by
  simp [connect, Act.run_bind, h, Outcome.after]

theorem connect_trace (p : Playback) : (connect p).trace = [.openSource] := by
  cases hsessions : p.sessions with
  | nil => rw [connect_nil hsessions]
  | cons session rest =>
    rw [connect_cons hsessions]
    cases session.openFault <;> rfl

theorem remaining_connect {p : Playback} {session : Session} {rest : List Session}
    (h : p.sessions = session :: rest) : (connect p).state.remaining < p.remaining := by
  rw [connect_cons h]
  cases session.openFault with
  | none | some fault =>
    simp only [remaining, h, size]
    omega

theorem keeps_connect : unbroken.aloud.Keeps connect := by
  intro p hp
  cases hsessions : p.sessions with
  | nil =>
    rw [connect_nil hsessions]
    exact ⟨hp, unbroken.refl p, fun _ _ => trivial, fun _ hf => Except.error.inj hf ▸ rfl⟩
  | cons session rest =>
    have hmem : ∀ later ∈ session :: rest, later.Uninterrupted := hsessions ▸ hp.sessions
    have hsession := hmem session (List.mem_cons_self ..)
    have hrest : ∀ later ∈ rest, later.Uninterrupted :=
      fun later hl => hmem later (List.mem_cons_of_mem _ hl)
    have hless := Nat.le_of_lt (remaining_connect hsessions)
    rw [connect_cons hsessions] at hless ⊢
    cases hfault : session.openFault with
    | some fault =>
      rw [hfault] at hless
      exact ⟨⟨hp.items, hsession.closeFault, hrest⟩, ⟨hless, id⟩, fun _ _ => trivial,
        fun _ hf => Except.error.inj hf ▸ hsession.openFault fault hfault⟩
    | none =>
      rw [hfault] at hless
      exact ⟨⟨hsession.items, hsession.closeFault, hrest⟩, ⟨hless, id⟩, fun _ _ => trivial, nofun⟩

instance : FadingFeed Playback where
  connect_lt p h := by
    change remaining (connect p).state < remaining p
    change ∀ fault, (connect p).result = .error fault → fault.isLink at h
    cases hsessions : p.sessions with
    | nil =>
      rw [connect_nil hsessions] at h
      exact nomatch h .exhausted rfl
    | cons session rest => exact remaining_connect hsessions
  read_lt p packet h := by
    change remaining (read p).state < remaining p
    change (read p).result = .ok packet at h
    cases hitems : p.items with
    | nil =>
      rw [read_nil hitems] at h
      exact nomatch h
    | cons item rest =>
      rw [read_cons hitems] at h ⊢
      cases item with
      | packet data => simp [take, remaining, hitems]
      | fails fault => exact nomatch h
      | stops fault =>
        cases hclose : p.closeFault <;>
          simp [take, requestStop, close, failIf, Act.run_bind, hclose, Outcome.after] at h

theorem feeds : Reader.Feeds unbroken where
  connect := keeps_connect
  read := keeps_read
  close := keeps_close
  requestStop := keeps_requestStop
  remaining _ _ h := h.1

end Playback
end MoteLink
