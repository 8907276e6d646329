import MoteLink.Frame.Encoding

/-! Unstuffing: what stuffed bytes stand for, read from left to right. Main statements: stuffed
bytes stand for what was stuffed, hold no delimiter and end in no lone escape mark. -/

namespace MoteLink.Frame

/-- An escape mark with no byte behind it stands for nothing. -/
def unstuff : Bytes → Bytes
  | [] => []
  | [b] => if b = escapeMark then [] else [b]
  | b :: x :: rest => if b = escapeMark then toggle x :: unstuff rest else b :: unstuff (x :: rest)

/-- Whether the bytes end in an escape mark with no byte behind it. -/
def dangling : Bytes → Bool
  | [] => false
  | [b] => b = escapeMark
  | b :: x :: rest => if b = escapeMark then dangling rest else dangling (x :: rest)

theorem unstuff_cons {b : UInt8} (h : b ≠ escapeMark) (rest : Bytes) :
    unstuff (b :: rest) = b :: unstuff rest := by
  cases rest <;> simp [unstuff, h]

theorem dangling_cons {b : UInt8} (h : b ≠ escapeMark) (rest : Bytes) :
    dangling (b :: rest) = dangling rest := by
  cases rest <;> simp [dangling, h]

/-- What one more byte adds depends only on whether an escape mark waits for it. -/
theorem unstuff_concat (g : Bytes) (b : UInt8) :
    unstuff (g ++ [b]) =
      if dangling g then unstuff g ++ [toggle b]
      else if b = escapeMark then unstuff g else unstuff g ++ [b] := by
  fun_induction unstuff g with
  | case1 => simp [unstuff, dangling]
  | case2 => simp [unstuff, dangling]
  | case3 x h => by_cases hb : b = escapeMark <;> simp [unstuff, dangling, h, hb]
  | case4 x rest ih =>
    have hstep : unstuff (escapeMark :: x :: rest ++ [b]) = toggle x :: unstuff (rest ++ [b]) := by
      simp [unstuff]
    rw [hstep, ih]
    simp only [dangling, if_true, List.cons_append, apply_ite (toggle x :: ·)]
  | case5 c x rest h ih =>
    have hstep : unstuff (c :: x :: rest ++ [b]) = c :: unstuff (x :: rest ++ [b]) := by
      simp [unstuff, h]
    rw [hstep, ih]
    simp only [dangling, h, if_false, List.cons_append, apply_ite (c :: ·)]

theorem dangling_concat (g : Bytes) (b : UInt8) :
    dangling (g ++ [b]) = (!dangling g && b = escapeMark) := by
  fun_induction dangling g with
  | case1 => simp [dangling]
  | case2 x => by_cases h : x = escapeMark <;> simp [dangling, h]
  | case3 x rest ih => simpa [dangling] using ih
  | case4 c x rest h ih => simpa [dangling, h] using ih

theorem unstuff_ne_nil {g : Bytes} (h : g ≠ []) (closed : dangling g = false) :
    unstuff g ≠ [] := by
  cases g with
  | nil => exact absurd rfl h
  | cons b rest =>
    cases rest with
    | nil =>
      have hb : b ≠ escapeMark := by simpa [dangling] using closed
      simp [unstuff, hb]
    | cons x rest => by_cases hb : b = escapeMark <;> simp [unstuff, hb]

theorem toggle_ne_delimiter {b : UInt8} (h : Reserved b) : toggle b ≠ delimiter := by
  rcases h with rfl | rfl <;> decide

theorem delimiter_not_mem_stuff (data : Bytes) : delimiter ∉ stuff data := by
  induction data with
  | nil => simp [stuff]
  | cons b rest ih =>
    by_cases h : Reserved b
    · have hm : delimiter ≠ escapeMark := by decide
      simp [stuff, h, ih, hm, (toggle_ne_delimiter h).symm]
    · have hb : delimiter ≠ b := fun e => h (.inl e.symm)
      simp [stuff, h, ih, hb]

theorem unstuff_stuff (data : Bytes) : unstuff (stuff data) = data := by
  induction data with
  | nil => rfl
  | cons b rest ih =>
    by_cases h : Reserved b
    · simp [stuff, h, unstuff, ih, toggle_toggle]
    · have hb : b ≠ escapeMark := fun e => h (.inr e)
      simp only [stuff, h, if_false, unstuff_cons hb, ih]

theorem dangling_stuff (data : Bytes) : dangling (stuff data) = false := by
  induction data with
  | nil => rfl
  | cons b rest ih =>
    by_cases h : Reserved b
    · simp [stuff, h, dangling, ih]
    · have hb : b ≠ escapeMark := fun e => h (.inr e)
      simp only [stuff, h, if_false, dangling_cons hb, ih]

end MoteLink.Frame
