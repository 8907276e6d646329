import MoteLink.Act

/-! Contracts of acts: from a state where the contract holds, an act comes to one where it holds
again and that the first leads to, by events and with faults of the kind it names, whether it faults
or not. Acts put together from acts that keep a contract keep it. -/

namespace MoteLink.Act

structure Contract (σ : Type) where
  holds : σ → Prop
  leads : σ → σ → Prop
  event : Event → Prop
  fault : Fault → Prop
  refl (s : σ) : leads s s
  trans {s s' s'' : σ} : leads s s' → leads s' s'' → leads s s''

namespace Contract

structure Allows (c : Contract σ) (s : σ) (o : Outcome σ α) : Prop where
  holds : c.holds o.state
  leads : c.leads s o.state
  events : ∀ e ∈ o.trace, c.event e
  faults : ∀ fault, o.result = .error fault → c.fault fault

def Keeps (c : Contract σ) (x : Act σ α) : Prop := ∀ s, c.holds s → c.Allows s (x s)

variable {c : Contract σ}

theorem Allows.after {s s' : σ} {o : Outcome σ α} {t : Trace} (h : c.Allows s' o)
    (leads : c.leads s s') (events : ∀ e ∈ t, c.event e) : c.Allows s (o.after t) := by
  refine ⟨h.holds, c.trans leads h.leads, fun e he => ?_, h.faults⟩
  rcases List.mem_append.1 he with hfirst | hrest
  · exact events e hfirst
  · exact h.events e hrest

theorem Allows.error {s s' : σ} {fault : Fault} {t : Trace}
    (h : c.Allows s (⟨.error fault, s', t⟩ : Outcome σ α)) :
    c.Allows s (⟨.error fault, s', t⟩ : Outcome σ β) :=
  ⟨h.holds, h.leads, h.events, fun f hf => h.faults f (by cases hf; rfl)⟩

namespace Keeps

theorem update {f : σ → σ} (h : ∀ s, c.holds s → c.holds (f s) ∧ c.leads s (f s)) :
    c.Keeps (Act.update f) := fun s hs =>
  ⟨(h s hs).1, (h s hs).2, fun _ he => absurd he List.not_mem_nil, nofun⟩

theorem look (f : σ → α) : c.Keeps (Act.look f) := fun s hs =>
  ⟨hs, c.refl s, fun _ he => absurd he List.not_mem_nil, nofun⟩

theorem pure (a : α) : c.Keeps (Pure.pure a : Act σ α) := fun s hs =>
  ⟨hs, c.refl s, fun _ he => absurd he List.not_mem_nil, nofun⟩

theorem fail {fault : Fault} (h : c.fault fault) : c.Keeps (Act.fail fault : Act σ α) :=
  fun s hs => ⟨hs, c.refl s, fun _ he => absurd he List.not_mem_nil,
    fun _ he => Except.error.inj he ▸ h⟩

theorem emit {event : Event} (h : c.event event) : c.Keeps (Act.emit event) := fun s hs =>
  ⟨hs, c.refl s, fun _ he => List.mem_singleton.1 he ▸ h, nofun⟩

theorem bind {x : Act σ α} {f : α → Act σ β} (h : c.Keeps x) (hf : ∀ a, c.Keeps (f a)) :
    c.Keeps (x >>= f) := by
  intro s hs
  have hx := h s hs
  rw [run_bind]
  cases ho : x s with
  | mk result s' t =>
    rw [ho] at hx
    cases result with
    | ok a => exact (hf a s' hx.holds).after hx.leads hx.events
    | error fault => exact hx.error

theorem lift {result : Except Fault α} (h : ∀ fault, result = .error fault → c.fault fault) :
    c.Keeps (Act.lift result) := by
  cases result with
  | ok a => exact pure a
  | error f => exact fail (h f rfl)

theorem each {f : α → Act σ Unit} (h : ∀ a, c.Keeps (f a)) (data : List α) :
    c.Keeps (Act.each f data) := by
  induction data with
  | nil => exact pure ()
  | cons a rest ih => exact bind (h a) fun _ => ih

end Keeps
end Contract

/-- The cleanup runs where the act left off, and only if that goes well the act's own result
stands. -/
theorem run_ensuring (x : Act σ α) (cleanup : Act σ Unit) (s : σ) :
    ensuring x cleanup s =
      ⟨(cleanup (x s).state).result.bind fun _ => (x s).result, (cleanup (x s).state).state,
        (x s).trace ++ (cleanup (x s).state).trace⟩ := by
  have hattempt : attempt x s = ⟨.ok (x s).result, (x s).state, (x s).trace⟩ := rfl
  rw [ensuring, bind_ok hattempt, run_bind]
  cases cleanup (x s).state with
  | mk closed s' t =>
    cases closed with
    | error fault => rfl
    | ok _ => cases (x s).result <;> simp [lift, Outcome.after, Except.bind]

namespace Contract

theorem Allows.ensured {c : Contract σ} {s : σ} {o : Outcome σ α} {p : Outcome σ Unit}
    (h : c.Allows s o) (hp : c.Allows o.state p) :
    c.Allows s ⟨p.result.bind fun _ => o.result, p.state, o.trace ++ p.trace⟩ := by
  have hboth := hp.after h.leads h.events
  refine ⟨hboth.holds, hboth.leads, hboth.events, fun fault hfault => ?_⟩
  cases hclosed : p.result with
  | ok _ => exact h.faults fault (by rwa [hclosed] at hfault)
  | error f =>
    rw [hclosed] at hfault
    obtain rfl := Except.error.inj hfault
    exact hp.faults f hclosed

end Contract
end MoteLink.Act
