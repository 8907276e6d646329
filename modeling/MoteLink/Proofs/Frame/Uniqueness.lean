import Mathlib.Data.List.Basic
import MoteLink.Proofs.Frame.Unstuffing

/-! Which bytes stuffing makes, and why a row of frames can be taken apart in one way only. Nothing
here depends on a receiver, so the bodies may be of any length, also empty or beyond its capacity.
Main statement: `stuffing_exact`. -/

namespace MoteLink.Frame

/-- What stuffed bytes look like from outside: no delimiter stands among them, behind each escape
mark stands one of two bytes, and none is left open at the end. -/
structure Stuffed (s : Bytes) : Prop where
  no_delimiter : delimiter ∉ s
  escapes : s.IsChain fun a b => a = escapeMark → b = 0x5D ∨ b = 0x5E
  ends : s.getLast? ≠ some escapeMark

theorem stuffed_nil : Stuffed [] := ⟨List.not_mem_nil, .nil, nofun⟩

theorem stuffed_cons_cons_iff (b x : UInt8) (rest : Bytes) :
    Stuffed (b :: x :: rest) ↔
      b ≠ delimiter ∧ (b = escapeMark → x = 0x5D ∨ x = 0x5E) ∧ Stuffed (x :: rest) := by
  constructor
  · rintro ⟨hmem, hchain, hlast⟩
    rw [List.mem_cons, not_or] at hmem
    rw [List.isChain_cons_cons] at hchain
    rw [List.getLast?_cons_cons] at hlast
    exact ⟨Ne.symm hmem.1, hchain.1, hmem.2, hchain.2, hlast⟩
  · rintro ⟨hb, hescape, hmem, hchain, hlast⟩
    refine ⟨?_, List.isChain_cons_cons.2 ⟨hescape, hchain⟩, ?_⟩
    · rw [List.mem_cons, not_or]
      exact ⟨Ne.symm hb, hmem⟩
    · rwa [List.getLast?_cons_cons]

theorem Stuffed.cons {b : UInt8} {rest : Bytes} (h : Stuffed rest) (hd : b ≠ delimiter)
    (hm : b ≠ escapeMark) : Stuffed (b :: rest) := by
  cases rest with
  | nil =>
    have hmem : delimiter ∉ [b] := by
      rw [List.mem_singleton]
      exact hd.symm
    exact ⟨hmem, .singleton b, fun e => hm (Option.some.inj e)⟩
  | cons x rest => exact (stuffed_cons_cons_iff b x rest).2 ⟨hd, fun e => absurd e hm, h⟩

theorem Stuffed.tail {b : UInt8} {rest : Bytes} (h : Stuffed (b :: rest)) : Stuffed rest := by
  cases rest with
  | nil => exact stuffed_nil
  | cons x rest => exact ((stuffed_cons_cons_iff b x rest).1 h).2.2

theorem Stuffed.head_ne {b : UInt8} {rest : Bytes} (h : Stuffed (b :: rest)) : b ≠ delimiter :=
  fun e => h.no_delimiter (e ▸ List.mem_cons_self)

theorem toggle_of_reserved {b : UInt8} (h : Reserved b) : toggle b = 0x5D ∨ toggle b = 0x5E := by
  rcases h with rfl | rfl
  · exact .inr rfl
  · exact .inl rfl

theorem reserved_toggle {b : UInt8} (h : b = 0x5D ∨ b = 0x5E) : Reserved (toggle b) := by
  rcases h with rfl | rfl
  · exact .inr rfl
  · exact .inl rfl

theorem not_reserved {b : UInt8} (h : b = 0x5D ∨ b = 0x5E) : ¬ Reserved b := by
  rcases h with rfl | rfl <;> decide

theorem stuffed_stuff (data : Bytes) : Stuffed (stuff data) := by
  induction data with
  | nil => exact stuffed_nil
  | cons b rest ih =>
    by_cases h : Reserved b
    · have hstand := toggle_of_reserved h
      have hplain := not_or.1 (not_reserved hstand)
      rw [stuff, if_pos h, stuffed_cons_cons_iff]
      exact ⟨by decide, fun _ => hstand, ih.cons hplain.1 hplain.2⟩
    · have hplain := not_or.1 h
      rw [stuff, if_neg h]
      exact ih.cons hplain.1 hplain.2

theorem stuff_unstuff {s : Bytes} (h : Stuffed s) : stuff (unstuff s) = s := by
  -- a mark is read together with the byte behind it, which is no mark itself
  fun_induction unstuff s with
  | case1 => rfl
  | case2 => exact absurd rfl h.ends
  | case3 b hb =>
    have hplain : ¬ Reserved b := not_or.2 ⟨h.head_ne, hb⟩
    rw [stuff, if_neg hplain, stuff]
  | case4 x rest ih =>
    obtain ⟨-, hescape, hrest⟩ := (stuffed_cons_cons_iff _ x rest).1 h
    have hreserved := reserved_toggle (hescape rfl)
    rw [stuff, if_pos hreserved, toggle_toggle, ih hrest.tail]
  | case5 b x rest hb ih =>
    have hplain : ¬ Reserved b := not_or.2 ⟨h.head_ne, hb⟩
    rw [stuff, if_neg hplain, ih h.tail]

theorem exists_stuff_iff (s : Bytes) : (∃ data, stuff data = s) ↔ Stuffed s := by
  constructor
  · rintro ⟨data, rfl⟩
    exact stuffed_stuff data
  · exact fun h => ⟨unstuff s, stuff_unstuff h⟩

theorem stuff_injective : Function.Injective stuff := Function.LeftInverse.injective unstuff_stuff

theorem summed_injective : Function.Injective summed := fun _ _ h => (List.append_inj' h rfl).1

theorem encode_append (body s : Bytes) :
    encode body ++ s = delimiter :: (stuff (summed body) ++ delimiter :: s) := by
  simp [encode]

/-- Up to a separator that stands in neither of them two texts are the same. -/
theorem append_cons_inj {d : UInt8} {g h s t : Bytes} (hg : d ∉ g) (hh : d ∉ h) :
    g ++ d :: s = h ++ d :: t ↔ g = h ∧ s = t := by
  constructor
  · intro e
    have hcut := congrArg (List.splitOn d) e
    rw [List.splitOn_append_cons_self_of_not_mem hg,
      List.splitOn_append_cons_self_of_not_mem hh] at hcut
    obtain rfl := (List.cons.inj hcut).1
    exact ⟨rfl, (List.cons.inj (List.append_cancel_left e)).2⟩
  · rintro ⟨rfl, rfl⟩
    rfl

theorem encode_append_inj {a b s t : Bytes} :
    encode a ++ s = encode b ++ t ↔ a = b ∧ s = t := by
  rw [encode_append, encode_append, List.cons_inj_right,
    append_cons_inj (delimiter_not_mem_stuff _) (delimiter_not_mem_stuff _),
    stuff_injective.eq_iff, summed_injective.eq_iff]

theorem flatMap_encode_injective : Function.Injective fun bodies : List Bytes =>
    bodies.flatMap encode := by
  intro bodies
  induction bodies with
  | nil =>
    rintro (_ | ⟨other, others⟩) h
    · rfl
    · exact nomatch h
  | cons body more ih =>
    rintro (_ | ⟨other, others⟩) h
    · exact nomatch h
    · obtain ⟨rfl, hmore⟩ := encode_append_inj.1 h
      rw [ih hmore]

theorem getElem?_concat_eq_some_iff {d : UInt8} {g : Bytes} (hg : d ∉ g) (i : Nat) :
    (g ++ [d])[i]? = some d ↔ i = g.length := by
  constructor
  · intro h
    rcases Nat.lt_trichotomy i g.length with hlt | heq | hgt
    · rw [List.getElem?_append_left hlt] at h
      exact absurd (List.mem_of_getElem? h) hg
    · exact heq
    · have hend : (g ++ [d]).length ≤ i := by
        rw [List.length_append]
        exact hgt
      rw [List.getElem?_eq_none hend] at h
      exact nomatch h
  · rintro rfl
    exact List.getElem?_concat_length

theorem getElem?_encode_eq_delimiter_iff (body : Bytes) (i : Nat) :
    (encode body)[i]? = some delimiter ↔ i = 0 ∨ i + 1 = (encode body).length := by
  have hcons : encode body = delimiter :: (stuff (summed body) ++ [delimiter]) := rfl
  rw [hcons]
  cases i with
  | zero => simp
  | succ i =>
    rw [List.getElem?_cons_succ, getElem?_concat_eq_some_iff (delimiter_not_mem_stuff _)]
    simp

/-- Stuffing makes exactly the bytes that look stuffed, from one text each. A frame has its
delimiters at its two ends and nowhere else, and frames in a row can be read in one way only. -/
theorem stuffing_exact :
    (∀ s : Bytes, (∃ data, stuff data = s) ↔
        delimiter ∉ s ∧ s.IsChain (fun a b => a = escapeMark → b = 0x5D ∨ b = 0x5E) ∧
          s.getLast? ≠ some escapeMark) ∧
      Function.Injective stuff ∧
      (∀ (body : Bytes) (i : Nat),
        (encode body)[i]? = some delimiter ↔ i = 0 ∨ i + 1 = (encode body).length) ∧
      ∀ bodies others : List Bytes,
        bodies.flatMap encode = others.flatMap encode ↔ bodies = others := by
  refine ⟨fun s => ?_, stuff_injective, getElem?_encode_eq_delimiter_iff,
    fun bodies others => flatMap_encode_injective.eq_iff⟩
  rw [exists_stuff_iff]
  exact ⟨fun h => ⟨h.no_delimiter, h.escapes, h.ends⟩, fun h => ⟨h.1, h.2.1, h.2.2⟩⟩

end MoteLink.Frame
