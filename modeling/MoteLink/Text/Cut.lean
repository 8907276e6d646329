/-! Cutting a text at the first or the last of a mark. -/

namespace MoteLink.Text

def cutFirst (mark : Char) : List Char → Option (List Char × List Char)
  | [] => none
  | c :: rest =>
    if c = mark then some ([], rest)
    else (cutFirst mark rest).map fun (before, behind) => (c :: before, behind)

def cutLast (mark : Char) (cs : List Char) : Option (List Char × List Char) :=
  (cutFirst mark cs.reverse).map fun (behind, before) => (before.reverse, behind.reverse)

theorem cutFirst_eq_some {mark : Char} {cs a b : List Char} :
    cutFirst mark cs = some (a, b) ↔ cs = a ++ mark :: b ∧ mark ∉ a := by
  induction cs generalizing a with
  | nil => simp [cutFirst]
  | cons c rest ih =>
    by_cases h : c = mark
    · subst h
      cases a with
      | nil => simp [cutFirst, eq_comm]
      | cons x a => simp +contextual [cutFirst, eq_comm]
    · cases a with
      | nil => simp [cutFirst, h]
      | cons x a =>
        simp only [cutFirst, h, if_false, Option.map_eq_some_iff, Prod.mk.injEq, Prod.exists,
          List.cons_append, List.cons.injEq, List.mem_cons, not_or]
        constructor
        · rintro ⟨before, behind, hc, ⟨rfl, rfl⟩, rfl⟩
          obtain ⟨hr, hm⟩ := ih.mp hc
          exact ⟨⟨rfl, hr⟩, fun e => h e.symm, hm⟩
        · rintro ⟨⟨rfl, hr⟩, _, hm⟩
          exact ⟨a, b, ih.mpr ⟨hr, hm⟩, ⟨rfl, rfl⟩, rfl⟩

theorem cutFirst_eq_none {mark : Char} {cs : List Char} :
    cutFirst mark cs = none ↔ mark ∉ cs := by
  induction cs with
  | nil => simp [cutFirst]
  | cons c rest ih =>
    by_cases h : c = mark
    · simp [cutFirst, h]
    · have h' : mark ≠ c := fun e => h e.symm
      simp [cutFirst, h, h', ih]

theorem cutLast_eq_none {mark : Char} {cs : List Char} :
    cutLast mark cs = none ↔ mark ∉ cs := by
  rw [cutLast, Option.map_eq_none_iff, cutFirst_eq_none, List.mem_reverse]

theorem cutLast_eq_some {mark : Char} {cs a b : List Char} :
    cutLast mark cs = some (a, b) ↔ cs = a ++ mark :: b ∧ mark ∉ b := by
  rw [cutLast, Option.map_eq_some_iff]
  constructor
  · rintro ⟨⟨behind, before⟩, hcut, heq⟩
    obtain ⟨rfl, rfl⟩ := Prod.mk.inj heq
    obtain ⟨hcs, hmark⟩ := cutFirst_eq_some.1 hcut
    exact ⟨by rw [← List.reverse_reverse cs, hcs]; simp, by simpa using hmark⟩
  · rintro ⟨rfl, hmark⟩
    refine ⟨(b.reverse, a.reverse), cutFirst_eq_some.2 ⟨by simp, by simpa using hmark⟩, ?_⟩
    exact Prod.ext a.reverse_reverse b.reverse_reverse

end MoteLink.Text
