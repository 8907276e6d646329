import Mathlib.Data.List.DropRight
import MoteLink.Packet.Message

/-! The text buffer of a message as it is seen element by element, as a text and as a payload of its
own. A payload counts up to the size of the buffer and up to the zeros at its end. Main statement:
the views agree, wherever the size is a word. -/

namespace MoteLink
namespace Buffer

/-- The bytes without the zeros at their end. -/
def trimmed (data : Bytes) : Bytes := data.rdropWhile (· == 0)

theorem fit_of_nonneg {size : Int} (h : 0 ≤ size) (data : Bytes) :
    fit size data = data.take size.toNat ++ List.replicate (size.toNat - data.length) 0 :=
  if_neg (Int.not_lt.2 h)

theorem getElem?_fit {size : Int} (h : 0 ≤ size) (data : Bytes) {j : Nat} (hj : j < size.toNat) :
    (fit size data)[j]? = some (data.getD j 0) := by
  rw [fit_of_nonneg h, List.getD_eq_getElem?_getD]
  by_cases hdata : j < data.length
  · have htake : j < (data.take size.toNat).length := by
      rw [List.length_take]
      exact Nat.lt_min.2 ⟨hj, hdata⟩
    rw [List.getElem?_append_left htake, List.getElem?_take_of_lt hj,
      List.getElem?_eq_getElem hdata, Option.getD_some]
  · have hle := Nat.not_lt.1 hdata
    have hzero : j - data.length < size.toNat - data.length := by omega
    rw [List.take_of_length_le (hle.trans hj.le), List.getElem?_append_right hle,
      List.getElem?_replicate_of_lt hzero, List.getElem?_eq_none hle, Option.getD_none]

/-- A payload of the right length is the buffer. -/
theorem fit_of_length {size : Int} (h : 0 ≤ size) {data : Bytes} (hlen : data.length = size.toNat) :
    fit size data = data := by
  rw [fit_of_nonneg h, hlen, Nat.sub_self, List.replicate_zero, List.append_nil, ← hlen,
    List.take_length]

theorem trimmed_append_zeros (data : Bytes) (k : Nat) :
    trimmed (data ++ List.replicate k 0) = trimmed data := by
  induction k with
  | zero => rw [List.replicate_zero, List.append_nil]
  | succ k ih =>
    rw [List.replicate_succ', ← List.append_assoc, trimmed, List.rdropWhile_concat_pos _ _ _ rfl]
    exact ih

theorem exists_zeros (data : Bytes) : ∃ k, data = trimmed data ++ List.replicate k 0 := by
  have hzeros : ∀ b ∈ data.rtakeWhile (· == 0), b = 0 := fun b hb =>
    eq_of_beq (List.mem_rtakeWhile_imp (p := (· == 0)) hb)
  refine ⟨(data.rtakeWhile (· == 0)).length, ?_⟩
  rw [← List.eq_replicate_of_mem hzeros]
  exact List.rdropWhile_append_rtakeWhile.symm

theorem eq_of_trimmed_eq {a b : Bytes} (hlen : a.length = b.length) (h : trimmed a = trimmed b) :
    a = b := by
  obtain ⟨j, ha⟩ := exists_zeros a
  obtain ⟨k, hb⟩ := exists_zeros b
  -- the lengths tell how many zeros were cut from each
  have hcount : j = k := by
    rw [ha, hb, h, List.length_append, List.length_append, List.length_replicate,
      List.length_replicate] at hlen
    exact Nat.add_left_cancel hlen
  rw [ha, hb, h, hcount]

/-- The buffer does not show what a payload has beyond its size, nor the zeros at the end. -/
theorem fit_eq_iff {size : Int} (h : 0 ≤ size) (a b : Bytes) :
    fit size a = fit size b ↔ trimmed (a.take size.toNat) = trimmed (b.take size.toNat) := by
  have htrim (data : Bytes) : trimmed (fit size data) = trimmed (data.take size.toNat) := by
    rw [fit_of_nonneg h, trimmed_append_zeros]
  rw [← htrim, ← htrim]
  refine ⟨congrArg trimmed, eq_of_trimmed_eq ?_⟩
  rw [length_fit h, length_fit h]

/-- Where an index points to: those below zero count from the end. -/
def place (size i : Int) : Int := if i < 0 then i + size else i

theorem place_within {size i : Int} (low : -size ≤ i) (high : i < size) :
    0 ≤ place size i ∧ place size i < size := by
  unfold place
  split <;> omega

theorem place_beyond {size i : Int} (h : ¬ (-size ≤ i ∧ i < size)) :
    place size i < 0 ∨ size ≤ place size i := by
  unfold place
  split <;> omega

theorem element_of_word {i : Int} (word : IsWord i) (buffer : Bytes) :
    element buffer i =
      match if place buffer.length i < 0 then none
        else buffer[(place buffer.length i).toNat]? with
      | some b => .ok b
      | none => .error (.index i buffer.length) := if_pos word

theorem element_within {buffer : Bytes} {i : Int} (word : IsWord i) (low : -buffer.length ≤ i)
    (high : i < buffer.length) :
    element buffer i = .ok (buffer.getD (place buffer.length i).toNat 0) := by
  obtain ⟨hnonneg, hlt⟩ := place_within low high
  have hbound : (place buffer.length i).toNat < buffer.length := (Int.toNat_lt hnonneg).2 hlt
  rw [element_of_word word, if_neg (Int.not_lt.2 hnonneg), List.getD_eq_getElem?_getD,
    List.getElem?_eq_getElem hbound, Option.getD_some]

/-- From the front a position is its own place. -/
theorem element_natCast {buffer : Bytes} (word : IsWord buffer.length) {j : Nat} {b : UInt8}
    (h : buffer[j]? = some b) : element buffer j = .ok b := by
  have hlt : j < buffer.length := (List.getElem?_eq_some_iff.1 h).1
  have hword : IsWord j := by
    unfold IsWord at word ⊢
    omega
  have hplace : place buffer.length j = j := if_neg (Int.not_lt.2 (Int.natCast_nonneg j))
  rw [element_within hword (by omega) (Int.ofNat_lt.2 hlt), hplace, Int.toNat_natCast,
    List.getD_eq_getElem?_getD, h, Option.getD_some]

theorem element_beyond_of_word {buffer : Bytes} {i : Int} (word : IsWord i)
    (h : ¬ (-buffer.length ≤ i ∧ i < buffer.length)) :
    element buffer i = .error (.index i buffer.length) := by
  rw [element_of_word word]
  rcases place_beyond h with hlow | hhigh
  · rw [if_pos hlow]
  · have hnonneg : ¬ place buffer.length i < 0 := by omega
    rw [if_neg hnonneg, List.getElem?_eq_none (Int.toNat_le_toNat hhigh)]

/-- From two to the 63rd on, below two to the 64th: a word holds it only without a sign. -/
def IsWide (i : Int) : Prop := 9223372036854775808 ≤ i ∧ i < 18446744073709551616

instance : DecidablePred IsWide := fun _ => inferInstanceAs (Decidable (_ ∧ _))

theorem isWide_iff (i : Int) : IsWide i ↔ ¬ IsWord i ∧ IsNaturalWord i := by
  unfold IsWide IsWord IsNaturalWord
  omega

/-- Outside the buffer the kind of the fault depends on the index alone, not on the size. -/
theorem element_beyond {buffer : Bytes} {i : Int}
    (h : ¬ (-buffer.length ≤ i ∧ i < buffer.length)) :
    ∃ fault, element buffer i = .error fault ∧
      fault.label = if IsWide i then "OverflowError" else "IndexError" := by
  by_cases hword : IsWord i
  · have hsmall : ¬ IsWide i := fun hwide => ((isWide_iff i).1 hwide).1 hword
    exact ⟨_, element_beyond_of_word hword h, (if_neg hsmall).symm⟩
  · by_cases hnatural : IsNaturalWord i
    · have hwide : IsWide i := (isWide_iff i).2 ⟨hword, hnatural⟩
      refine ⟨.widePosition, ?_, (if_pos hwide).symm⟩
      rw [element, if_neg hword, if_pos hnatural]
    · have hother : ¬ IsWide i := fun hwide => hnatural ((isWide_iff i).1 hwide).2
      refine ⟨.noPosition, ?_, (if_neg hother).symm⟩
      rw [element, if_neg hword, if_neg hnatural]

/-- The bytes of the text, up to the end or to a zero. -/
theorem exists_text (buffer : Bytes) :
    ∃ front rest, buffer = front ++ rest ∧ (∀ b ∈ front, b ≠ 0) ∧
      (rest = [] ∨ rest.head? = some 0) ∧ text buffer = String.ofList (Bytes.latin front) := by
  refine ⟨buffer.takeWhile (· != 0), buffer.dropWhile (· != 0),
    List.takeWhile_append_dropWhile.symm, ?_, ?_, rfl⟩
  · intro b hb
    exact bne_iff_ne.1 (List.mem_takeWhile_imp (p := (· != 0)) hb)
  · have hstop := List.head?_dropWhile_not (· != 0) buffer
    cases hrest : buffer.dropWhile (· != 0) with
    | nil => exact .inl rfl
    | cons b more =>
      rw [hrest] at hstop
      exact .inr (congrArg some (bne_eq_false_iff_eq.1 hstop))

/-- The text ends at the first zero or with the buffer, and has a character for each byte before. -/
theorem getElem?_text (buffer : Bytes) :
    (text buffer).length ≤ buffer.length ∧
      ((text buffer).length = buffer.length ∨ buffer[(text buffer).length]? = some 0) ∧
      ∀ j < (text buffer).length, ∃ b, b ≠ 0 ∧ buffer[j]? = some b ∧
        (text buffer).toList[j]? = some (Char.ofNat b.toNat) := by
  obtain ⟨front, rest, rfl, hfront, hrest, htext⟩ := exists_text buffer
  have hlen : (text (front ++ rest)).length = front.length := by
    rw [htext, String.length_ofList, Bytes.latin, List.length_map]
  rw [hlen, List.length_append]
  refine ⟨Nat.le_add_right _ _, ?_, fun j hj => ?_⟩
  · rcases hrest with rfl | hzero
    · exact .inl rfl
    · rw [List.getElem?_append_right le_rfl, Nat.sub_self, ← List.head?_eq_getElem?]
      exact .inr hzero
  · refine ⟨front[j], hfront _ (List.getElem_mem hj), ?_, ?_⟩
    · rw [List.getElem?_append_left hj, List.getElem?_eq_getElem hj]
    · rw [htext, String.toList_ofList, Bytes.latin, List.getElem?_map,
        List.getElem?_eq_getElem hj, Option.map_some]

end Buffer

namespace Message

/-- The text that a message holds. -/
def text? (m : Message) : Option String := m.buffer?.map Buffer.text

section
variable {m : Message} {size : Int}

theorem buffer?_eq (holds : m.kind.buffer = some size) :
    m.buffer? = some (Buffer.fit size m.data) := by
  rw [buffer?, holds, Option.map_some]

theorem bufferElement_eq (holds : m.kind.buffer = some size) (i : Int) :
    m.bufferElement i = Buffer.element (Buffer.fit size m.data) i := by
  rw [bufferElement, buffer?_eq holds]

theorem length_buffer (nonneg : 0 ≤ size) (data : Bytes) :
    ((Buffer.fit size data).length : Int) = size := by
  rw [Buffer.length_fit nonneg, Int.toNat_of_nonneg nonneg]

theorem made_of_le (holds : m.kind.buffer = some size) (word : IsWord size)
    (h : size ≤ Buffer.limit) : m.made = .ok m := by
  refine made_eq_ok_iff.2 ⟨rfl, fun n hn => ?_⟩
  obtain rfl : size = n := Option.some.inj (holds.symm.trans hn)
  exact Buffer.checkSize_eq_ok_iff.2 ⟨word, h⟩

theorem bufferElement_within (holds : m.kind.buffer = some size) (nonneg : 0 ≤ size)
    (word : IsWord size) {i : Int} (low : -size ≤ i) (high : i < size) :
    m.bufferElement i = .ok (m.data.getD (Buffer.place size i).toNat 0) := by
  have hlen := length_buffer nonneg m.data
  -- below zero too: a word reaches one further down than up
  have hword : IsWord i := by
    unfold IsWord at word ⊢
    omega
  obtain ⟨hplace, hlt⟩ := Buffer.place_within low high
  have hbound : (Buffer.place size i).toNat < size.toNat :=
    (Int.toNat_lt_toNat (Int.lt_of_le_of_lt hplace hlt)).2 hlt
  rw [bufferElement_eq holds, Buffer.element_within hword (by rwa [hlen]) (by rwa [hlen]), hlen,
    List.getD_eq_getElem?_getD, Buffer.getElem?_fit nonneg m.data hbound, Option.getD_some]

theorem bufferElement_beyond (holds : m.kind.buffer = some size) (nonneg : 0 ≤ size) {i : Int}
    (h : ¬ (-size ≤ i ∧ i < size)) :
    ∃ fault, m.bufferElement i = .error fault ∧
      fault.label = if Buffer.IsWide i then "OverflowError" else "IndexError" := by
  rw [bufferElement_eq holds]
  apply Buffer.element_beyond
  rwa [length_buffer nonneg]

/-- A text shows the elements in front of the first zero, or all of them. -/
theorem text?_elements (holds : m.kind.buffer = some size) (nonneg : 0 ≤ size)
    (word : IsWord size) :
    ∃ text, m.text? = some text ∧ text.length ≤ size ∧
      (text.length = size ∨ m.bufferElement text.length = .ok 0) ∧
      ∀ j < text.length, ∃ b, b ≠ 0 ∧ m.bufferElement j = .ok b ∧
        text.toList[j]? = some (Char.ofNat b.toNat) := by
  have hlen := length_buffer nonneg m.data
  have hword : IsWord (Buffer.fit size m.data).length := by rwa [hlen]
  obtain ⟨hle, hend, hchars⟩ := Buffer.getElem?_text (Buffer.fit size m.data)
  have htext : m.text? = some (Buffer.text (Buffer.fit size m.data)) := by
    rw [text?, buffer?_eq holds, Option.map_some]
  refine ⟨_, htext, (Int.ofNat_le.2 hle).trans_eq hlen, ?_, fun j hj => ?_⟩
  · rw [bufferElement_eq holds]
    rcases hend with hall | hzero
    · exact .inl ((congrArg Nat.cast hall).trans hlen)
    · exact .inr (Buffer.element_natCast hword hzero)
  · obtain ⟨b, hb, hbuffer, hchar⟩ := hchars j hj
    rw [bufferElement_eq holds]
    exact ⟨b, hb, Buffer.element_natCast hword hbuffer, hchar⟩

theorem buffer?_eq_iff (holds : m.kind.buffer = some size) (nonneg : 0 ≤ size) {other : Message}
    (same : other.kind = m.kind) :
    other.buffer? = m.buffer? ↔
      Buffer.trimmed (other.data.take size.toNat) = Buffer.trimmed (m.data.take size.toNat) := by
  rw [buffer?_eq holds, buffer?_eq (same ▸ holds), Option.some.injEq, Buffer.fit_eq_iff nonneg]

theorem buffer?_carrying (holds : m.kind.buffer = some size) (nonneg : 0 ≤ size)
    (destination source group : Option Int) :
    (m.carrying (Buffer.fit size m.data) destination source group).buffer? = m.buffer? := by
  have hclone : (m.carrying (Buffer.fit size m.data) destination source group).buffer? =
      some (Buffer.fit size (Buffer.fit size m.data)) := buffer?_eq holds
  rw [hclone, buffer?_eq holds, Buffer.fit_of_length nonneg (Buffer.length_fit nonneg m.data)]

end

/-- Where the size is a word, elements, text and payload show one buffer. An index within the size
gives a byte of the payload, or zero behind its end, and any other is refused; the text is that of
the elements up to the first zero; payloads alike up to the size and the zeros at the end have one
buffer; and a clone that carries the buffer cannot be told from the message by it. -/
theorem views_agree {m : Message} {size : Int} (holds : m.kind.buffer = some size)
    (nonneg : 0 ≤ size) (word : IsWord size) :
    (size ≤ Buffer.limit → m.made = .ok m) ∧
      (∀ i : Int, -size ≤ i → i < size →
        m.bufferElement i = .ok (m.data.getD (Buffer.place size i).toNat 0)) ∧
      (∀ i : Int, ¬ (-size ≤ i ∧ i < size) →
        ∃ fault, m.bufferElement i = .error fault ∧
          fault.label = if Buffer.IsWide i then "OverflowError" else "IndexError") ∧
      (∃ text, m.text? = some text ∧ text.length ≤ size ∧
        (text.length = size ∨ m.bufferElement text.length = .ok 0) ∧
        ∀ j < text.length, ∃ b, b ≠ 0 ∧ m.bufferElement j = .ok b ∧
          text.toList[j]? = some (Char.ofNat b.toNat)) ∧
      (∀ other : Message, other.kind = m.kind →
        (other.buffer? = m.buffer? ↔
          Buffer.trimmed (other.data.take size.toNat) =
            Buffer.trimmed (m.data.take size.toNat))) ∧
      ∃ buffer, m.buffer? = some buffer ∧ ∀ destination source group,
        let clone := m.carrying buffer destination source group
        (m.made = .ok m → clone.made = .ok clone) ∧ clone.buffer? = m.buffer? ∧
          clone.text? = m.text? ∧ ∀ i, clone.bufferElement i = m.bufferElement i := by
  refine ⟨made_of_le holds word, fun i => bufferElement_within holds nonneg word,
    fun i => bufferElement_beyond holds nonneg, text?_elements holds nonneg word,
    fun other => buffer?_eq_iff holds nonneg, Buffer.fit size m.data, buffer?_eq holds,
    fun destination source group => ?_⟩
  have hbuffer := buffer?_carrying holds nonneg destination source group
  exact ⟨fun made => made_carrying made _ destination source group, hbuffer,
    congrArg (Option.map Buffer.text) hbuffer,
    fun i => by rw [bufferElement, bufferElement, hbuffer]; rfl⟩

/-- Zeros may stand in the middle of a payload: they end its text, and nothing else. -/
theorem views_agree_inner_zero :
    let m : Message :=
      { kind := { label := "Custom", type := 100, buffer := some 4 }
        data := [0x41, 0x00, 0x42, 0x00, 0x43] }
    m.kind.buffer = some 4 ∧ (0 : Int) ≤ 4 ∧ IsWord 4 ∧ m.made = .ok m ∧
      m.bufferElement (-2) = .ok 0x42 ∧
      (∃ fault, m.bufferElement (-5) = .error fault ∧ fault.label = "IndexError") ∧
      (∃ fault, m.bufferElement 18446744073709551615 = .error fault ∧
        fault.label = "OverflowError") ∧
      m.text? = some "A" ∧
      ({ m with data := [0x41, 0x00, 0x42] } : Message).buffer? = m.buffer? ∧
      ({ m with data := [0x41, 0x00] } : Message).buffer? ≠ m.buffer? ∧
      (m.carrying [0x41, 0x00, 0x42, 0x00] none none none).bufferElement 2 = .ok 0x42 := by
  intro m
  have hword : IsWord 4 := by decide
  obtain ⟨hmade, hwithin, hbeyond, -, hpayloads, buffer, hbuffer, hclone⟩ :=
    views_agree (m := m) rfl (by decide) hword
  obtain rfl : [0x41, 0x00, 0x42, 0x00] = buffer := Option.some.inj hbuffer
  obtain ⟨-, -, -, hsame⟩ := hclone none none none
  refine ⟨rfl, by decide, hword, hmade (by decide), hwithin (-2) (by decide) (by decide),
    hbeyond (-5) (by decide), hbeyond 18446744073709551615 (by decide), by decide +kernel,
    (hpayloads _ rfl).2 (by decide),
    mt (hpayloads { m with data := [0x41, 0x00] } rfl).1 (by decide), ?_⟩
  rw [hsame 2]
  exact hwithin 2 (by decide) (by decide)

/-- Not every index outside a buffer is told to be outside. One that no word with a sign holds is
refused before it is compared with the size, and such a size makes no message. -/
theorem wide_index_overflows :
    let m : Message := { kind := .printf, data := [0x41, 0x42, 0x43] }
    let wide : Int := 9223372036854775808
    m.made = .ok m ∧ ¬ (-28 ≤ wide ∧ wide < 28) ∧
      (∃ fault, m.bufferElement wide = .error fault ∧ fault.label ≠ "IndexError") ∧
      ({ m with kind := { m.kind with buffer := some wide } } : Message).made =
        .error .wideSize := by
  intro m wide
  exact ⟨rfl, by decide, ⟨.widePosition, by decide, by decide⟩, by decide⟩

end Message
end MoteLink
