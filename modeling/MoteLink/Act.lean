import MoteLink.Event

/-! Acts: computations on a state that may fault and leave a trace. Whatever the outcome, the state
reached and the trace up to there remain. -/

namespace MoteLink

structure Outcome (σ α : Type) where
  result : Except Fault α
  state : σ
  trace : Trace := []

namespace Outcome

/-- The outcome seen after an earlier trace. -/
def after (earlier : Trace) (o : Outcome σ α) : Outcome σ α :=
  { o with trace := earlier ++ o.trace }

def map (f : α → β) (o : Outcome σ α) : Outcome σ β := ⟨o.result.map f, o.state, o.trace⟩

@[simp] theorem after_nil (o : Outcome σ α) : o.after [] = o := rfl

@[simp] theorem after_after (s t : Trace) (o : Outcome σ α) :
    (o.after t).after s = o.after (s ++ t) := by
  simp [after]

end Outcome

def Act (σ α : Type) := σ → Outcome σ α

namespace Act

protected def pure (a : α) : Act σ α := fun s => ⟨.ok a, s, []⟩

protected def bind (x : Act σ α) (f : α → Act σ β) : Act σ β := fun s =>
  match x s with
  | ⟨.ok a, s', t⟩ => (f a s').after t
  | ⟨.error e, s', t⟩ => ⟨.error e, s', t⟩

instance : Monad (Act σ) where
  pure := Act.pure
  bind := Act.bind

def fail (fault : Fault) : Act σ α := fun s => ⟨.error fault, s, []⟩

def emit (event : Event) : Act σ Unit := fun s => ⟨.ok (), s, [event]⟩

def look (f : σ → α) : Act σ α := fun s => ⟨.ok (f s), s, []⟩

def update (f : σ → σ) : Act σ Unit := fun s => ⟨.ok (), f s, []⟩

def lift : Except Fault α → Act σ α
  | .ok a => pure a
  | .error fault => fail fault

def attempt (x : Act σ α) : Act σ (Except Fault α) := fun s =>
  let o := x s
  ⟨.ok o.result, o.state, o.trace⟩

/-- Runs `cleanup` after `x` in any case. A fault of the cleanup takes the place of the result. -/
def ensuring (x : Act σ α) (cleanup : Act σ Unit) : Act σ α := do
  let result ← attempt x
  cleanup
  lift result

/-- Runs an act on a part of the state. -/
def within (get : τ → σ) (put : σ → τ → τ) (x : Act σ α) : Act τ α := fun t =>
  let o := x (get t)
  ⟨o.result, put o.state t, o.trace⟩

/-- Runs an act on a state of its own, which is forgotten at the end. -/
def aside (start : τ) (x : Act τ α) : Act σ α := fun s =>
  let o := x start
  ⟨o.result, s, o.trace⟩

/-- Goes through a list, up to the first fault. -/
def each (f : α → Act σ Unit) : List α → Act σ Unit
  | [] => pure ()
  | a :: rest => do f a; each f rest

@[simp] theorem run_pure (a : α) (s : σ) : (pure a : Act σ α) s = ⟨.ok a, s, []⟩ := rfl

@[simp] theorem run_fail (fault : Fault) (s : σ) :
    (fail fault : Act σ α) s = ⟨.error fault, s, []⟩ := rfl

@[simp] theorem run_emit (event : Event) (s : σ) : emit event s = ⟨.ok (), s, [event]⟩ := rfl

@[simp] theorem run_look (f : σ → α) (s : σ) : look f s = ⟨.ok (f s), s, []⟩ := rfl

@[simp] theorem run_update (f : σ → σ) (s : σ) : update f s = ⟨.ok (), f s, []⟩ := rfl

theorem run_bind (x : Act σ α) (f : α → Act σ β) (s : σ) :
    (x >>= f) s =
      match x s with
      | ⟨.ok a, s', t⟩ => (f a s').after t
      | ⟨.error e, s', t⟩ => ⟨.error e, s', t⟩ := rfl

theorem bind_ok {x : Act σ α} {s s' : σ} {a : α} {t : Trace} (h : x s = ⟨.ok a, s', t⟩)
    (f : α → Act σ β) : (x >>= f) s = (f a s').after t := by rw [run_bind, h]

theorem bind_error {x : Act σ α} {s s' : σ} {e : Fault} {t : Trace} (h : x s = ⟨.error e, s', t⟩)
    (f : α → Act σ β) : (x >>= f) s = ⟨.error e, s', t⟩ := by rw [run_bind, h]

theorem bind_assoc (x : Act σ α) (f : α → Act σ β) (g : β → Act σ γ) :
    (x >>= f) >>= g = x >>= fun a => f a >>= g := by
  funext s
  simp only [run_bind]
  cases x s with
  | mk result s' t =>
    cases result with
    | error e => rfl
    | ok a =>
      simp only [Outcome.after]
      cases f a s' with
      | mk result s'' u => cases result <;> simp

theorem bind_pure (x : Act σ α) : x >>= pure = x := by
  funext s
  rw [run_bind]
  cases x s with
  | mk result s' t => cases result <;> simp [Outcome.after]

theorem run_map (f : α → β) (x : Act σ α) (s : σ) : (f <$> x) s = (x s).map f := by
  show (x >>= fun a => pure (f a)) s = _
  rw [run_bind]
  cases x s with
  | mk result s' t => cases result <;> simp [Outcome.after, Outcome.map, Except.map]

theorem map_lift (f : α → β) (x : Except Fault α) :
    f <$> (lift x : Act σ α) = lift (x.map f) := by
  cases x <;> rfl

theorem run_lift (x : Except Fault α) (s : σ) : (lift x : Act σ α) s = ⟨x, s, []⟩ := by
  cases x <;> rfl

instance : LawfulMonad (Act σ) :=
  LawfulMonad.mk' (Act σ) (fun x => bind_pure x) (fun _ _ => rfl) bind_assoc

end Act
end MoteLink
