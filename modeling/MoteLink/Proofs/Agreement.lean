import MoteLink.Act

/-! Acts that cannot tell apart states that a relation holds between: they come to the same result
with the same trace, and leave states that it holds between again. -/

namespace MoteLink

structure Outcome.Agree (R : σ → σ → Prop) (o o' : Outcome σ α) : Prop where
  result : o.result = o'.result
  trace : o.trace = o'.trace
  state : R o.state o'.state

namespace Outcome.Agree
variable {R : σ → σ → Prop}

theorem other {s : σ} {result : Except Fault α} {t : Trace} {o : Outcome σ α}
    (h : Agree R ⟨result, s, t⟩ o) : ∃ s', o = ⟨result, s', t⟩ ∧ R s s' := by
  obtain ⟨result', s', t'⟩ := o
  obtain ⟨rfl, rfl, hstate⟩ := h
  exact ⟨s', rfl, hstate⟩

theorem after {o o' : Outcome σ α} (h : o.Agree R o') (t : Trace) :
    (o.after t).Agree R (o'.after t) :=
  ⟨h.result, congrArg (t ++ ·) h.trace, h.state⟩

theorem map {o o' : Outcome σ α} (h : o.Agree R o') (f : α → β) : (o.map f).Agree R (o'.map f) :=
  ⟨congrArg (Except.map f) h.result, h.trace, h.state⟩

end Outcome.Agree

namespace Act

def Respects (R : σ → σ → Prop) (x : Act σ α) : Prop := ∀ s s', R s s' → (x s).Agree R (x s')

variable {R : σ → σ → Prop}

namespace Respects

theorem pure (a : α) : Respects R (Pure.pure a) := fun _ _ h => ⟨rfl, rfl, h⟩

theorem fail (fault : Fault) : Respects R (Act.fail fault : Act σ α) := fun _ _ h => ⟨rfl, rfl, h⟩

theorem emit (event : Event) : Respects R (Act.emit event) := fun _ _ h => ⟨rfl, rfl, h⟩

theorem look {f : σ → α} (same : ∀ s s', R s s' → f s = f s') : Respects R (Act.look f) :=
  fun s s' h => ⟨congrArg Except.ok (same s s' h), rfl, h⟩

theorem update {f : σ → σ} (stays : ∀ s s', R s s' → R (f s) (f s')) :
    Respects R (Act.update f) := fun s s' h => ⟨rfl, rfl, stays s s' h⟩

theorem bind {x : Act σ α} {f : α → Act σ β} (h : Respects R x) (hf : ∀ a, Respects R (f a)) :
    Respects R (x >>= f) := by
  intro s s' hs
  have hx := h s s' hs
  rw [run_bind]
  cases hfirst : x s with
  | mk result m t =>
    rw [hfirst] at hx
    obtain ⟨m', hother, hm⟩ := hx.other
    rw [run_bind, hother]
    cases result with
    | error fault => exact ⟨rfl, rfl, hm⟩
    | ok a => exact (hf a m m' hm).after t

theorem map {x : Act σ α} (h : Respects R x) (f : α → β) : Respects R (f <$> x) := by
  rw [map_eq_pure_bind]
  exact h.bind fun a => pure (f a)

end Respects
end Act
end MoteLink
