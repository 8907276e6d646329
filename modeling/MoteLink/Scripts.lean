import MoteLink.Fault

/-! Scripts of listeners: the actions that each has left, by name, one of which it takes each time
it is called. `β` are the steps that an action can be. -/

namespace MoteLink

inductive Action (β : Type) where
  | rest
  | fails (fault : Fault)
  | step (step : β)
  deriving DecidableEq, Repr

abbrev Scripts (β : Type) := List (String × List (Action β))

namespace Scripts
variable {β : Type}

def left : Scripts β → Nat
  | [] => 0
  | (_, actions) :: more => actions.length + left more

/-- Puts the script of another listener back in front. -/
def skip (n : String) (actions : List (Action β)) (found : Action β × Scripts β) :
    Action β × Scripts β := (found.1, (n, actions) :: found.2)

/-- The next action of a listener, and the scripts without it. Out of actions it rests. -/
def next (name : String) : Scripts β → Action β × Scripts β
  | [] => (.rest, [])
  | (n, []) :: more => if n = name then (.rest, (n, []) :: more) else skip n [] (next name more)
  | (n, action :: later) :: more =>
    if n = name then (action, (n, later) :: more) else skip n (action :: later) (next name more)

/-- An action taken is one less left. -/
theorem left_next (name : String) (s : Scripts β) :
    (next name s).2.left ≤ s.left ∧
      ((next name s).1 ≠ .rest → (next name s).2.left + 1 = s.left) := by
  induction s with
  | nil => simp [next, left]
  | cons entry more ih =>
    obtain ⟨n, actions⟩ := entry
    obtain ⟨h₁, h₂⟩ := ih
    cases actions with
    | nil =>
      by_cases h : n = name
      · simp [next, h, left]
      · simpa [next, h, left, skip] using ⟨h₁, h₂⟩
    | cons action later =>
      by_cases h : n = name
      · simp [next, h, left]
        omega
      · simp only [next, h, if_false, skip, left, List.length_cons]
        exact ⟨by omega, fun hr => by have := h₂ hr; omega⟩

theorem next_of_left (name : String) {s : Scripts β} (h : s.left = 0) :
    s.next name = (.rest, s) := by
  induction s with
  | nil => rfl
  | cons entry more ih =>
    obtain ⟨n, actions⟩ := entry
    obtain ⟨hactions, hmore⟩ : actions.length = 0 ∧ left more = 0 := Nat.add_eq_zero_iff.1 h
    obtain rfl := List.length_eq_zero_iff.1 hactions
    by_cases hn : n = name
    · rw [next, if_pos hn]
    · rw [next, if_neg hn, ih hmore]
      rfl

end Scripts
end MoteLink
