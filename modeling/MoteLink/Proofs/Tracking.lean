import MoteLink.Proofs.Trace

/-! Relations between a state, what happens and the state after. One that holds of nothing done, and
of one thing after another, holds of every act put together from acts of which it holds. -/

namespace MoteLink.Act

structure Tracking (σ : Type) where
  rel : σ → Trace → σ → Prop
  refl (s : σ) : rel s [] s
  trans {s s' s'' : σ} {t u : Trace} : rel s t s' → rel s' u s'' → rel s (t ++ u) s''

namespace Tracking
variable {k : Tracking σ}

/-- Holds of what an act comes to, whether it faults or not. -/
def Of (k : Tracking σ) (o : Outcome σ α) (s : σ) : Prop := k.rel s o.trace o.state

def Every (k : Tracking σ) (x : Act σ α) : Prop := ∀ s, k.Of (x s) s

theorem Of.after {s s' : σ} {o : Outcome σ α} {t : Trace} (h : k.Of o s') (first : k.rel s t s') :
    k.Of (o.after t) s := k.trans first h

namespace Every

theorem pure (a : α) : k.Every (Pure.pure a : Act σ α) := k.refl

theorem fail (fault : Fault) : k.Every (Act.fail fault : Act σ α) := k.refl

theorem look (f : σ → α) : k.Every (Act.look f) := k.refl

theorem bind {x : Act σ α} {f : α → Act σ β} (h : k.Every x) (hf : ∀ a, k.Every (f a)) :
    k.Every (x >>= f) := by
  intro s
  have hx := h s
  rw [run_bind]
  cases hr : x s with
  | mk result s' t =>
    rw [hr] at hx
    cases result with
    | error fault => exact hx
    | ok a => exact (hf a s').after hx

end Every
end Tracking
end MoteLink.Act
