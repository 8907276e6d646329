import MoteLink.Packet.Basic

/-! The form of packets. Main statement: reading gives a packet exactly where that packet is
written, with anything behind it, and the bytes of which it gives none are told apart by their
length and their first byte. -/

namespace MoteLink

namespace Bytes

theorem network_ofNetwork {n : Nat} (h : n < 65536) :
    network (UInt8.ofNat (n / 256)) (UInt8.ofNat n) = n := by
  simp only [network, UInt8.toNat_ofNat']
  omega

theorem network_lt (high low : UInt8) : network high low < 65536 := by
  have hhigh := high.toNat_lt
  have hlow := low.toNat_lt
  rw [network]
  omega

theorem ofNetwork_network (high low : UInt8) : ofNetwork (network high low) = [high, low] := by
  have hlow := low.toNat_lt
  have hdiv : network high low / 256 = high.toNat := by
    rw [network]
    omega
  have hmod : UInt8.ofNat (network high low) = low := by
    apply UInt8.toNat_inj.1
    rw [UInt8.toNat_ofNat', network]
    omega
  rw [ofNetwork, hdiv, hmod, UInt8.ofNat_toNat]

end Bytes

namespace Packet

/-- The header has room for the addresses and for the length of the payload. -/
structure Encodable (p : Packet) : Prop where
  destination_lt : p.destination < 65536
  source_lt : p.source < 65536
  length_le : p.payload.length ≤ 255

theorem parse?_cons (d dh dl sh sl length group type : UInt8) (rest : Bytes) :
    parse? (d :: dh :: dl :: sh :: sl :: length :: group :: type :: rest) =
      if d = dispatch ∧ length.toNat ≤ rest.length then
        some ⟨Bytes.network dh dl, Bytes.network sh sl, group, type, rest.take length.toNat⟩
      else none := rfl

/-- The dispatch byte and the seven bytes of the header stand in front. -/
theorem exists_header {data : Bytes} (h : 8 ≤ data.length) :
    ∃ d dh dl sh sl length group type rest,
      data = d :: dh :: dl :: sh :: sl :: length :: group :: type :: rest := by
  have hlen : (data.take 8).length = 8 := List.length_take_of_le h
  match htake : data.take 8, hlen with
  | [d, dh, dl, sh, sl, length, group, type], _ =>
    refine ⟨d, dh, dl, sh, sl, length, group, type, data.drop 8, ?_⟩
    exact (List.take_append_drop 8 data).symm.trans (congrArg (· ++ data.drop 8) htake)

theorem parse?_of_length_lt {data : Bytes} (h : data.length < 8) : parse? data = none := by
  unfold parse?
  split
  · simp only [List.length_cons] at h
    omega
  · rfl

theorem parse?_encode_append {p : Packet} (h : p.Encodable) (rest : Bytes) :
    parse? (p.encode ++ rest) = some p := by
  have hlength : (UInt8.ofNat p.payload.length).toNat = p.payload.length := by
    have := h.length_le
    rw [UInt8.toNat_ofNat']
    omega
  have hcons : p.encode ++ rest =
      dispatch :: UInt8.ofNat (p.destination / 256) :: UInt8.ofNat p.destination ::
        UInt8.ofNat (p.source / 256) :: UInt8.ofNat p.source :: UInt8.ofNat p.payload.length ::
        p.group :: p.type :: (p.payload ++ rest) := by
    simp [encode, Bytes.ofNetwork]
  have henough : p.payload.length ≤ (p.payload ++ rest).length := by simp
  rw [hcons, parse?_cons, hlength, if_pos ⟨rfl, henough⟩, Bytes.network_ofNetwork h.destination_lt,
    Bytes.network_ofNetwork h.source_lt, List.take_left]

theorem encodable_of_parse? {data : Bytes} {p : Packet} (h : parse? data = some p) :
    p.Encodable ∧ ∃ rest, data = p.encode ++ rest := by
  have hlong : ¬ data.length < 8 := by
    intro hshort
    rw [parse?_of_length_lt hshort] at h
    exact nomatch h
  obtain ⟨d, dh, dl, sh, sl, length, group, type, rest, rfl⟩ := exists_header (Nat.not_lt.1 hlong)
  rw [parse?_cons] at h
  split at h
  · rename_i hwhole
    obtain ⟨rfl, henough⟩ := hwhole
    obtain rfl := Option.some.inj h
    have hpayload : (rest.take length.toNat).length = length.toNat := List.length_take_of_le henough
    refine ⟨⟨Bytes.network_lt dh dl, Bytes.network_lt sh sl, ?_⟩, rest.drop length.toNat, ?_⟩
    · have := length.toNat_lt
      simp only [hpayload]
      omega
    · simp [encode, Bytes.ofNetwork_network, hpayload]
  · exact nomatch h

theorem parse?_eq_none_iff (data : Bytes) :
    parse? data = none ↔
      data.length < 8 ∨ data.head? ≠ some dispatch ∨
        data.length < 8 + (data.getD 5 0).toNat := by
  by_cases hshort : data.length < 8
  · simp [parse?_of_length_lt hshort, hshort]
  · obtain ⟨d, dh, dl, sh, sl, length, group, type, rest, rfl⟩ :=
      exists_header (Nat.not_lt.1 hshort)
    have hcount : (d :: dh :: dl :: sh :: sl :: length :: group :: type :: rest).length <
        8 + length.toNat ↔ ¬ length.toNat ≤ rest.length := by
      simp only [List.length_cons]
      omega
    rw [parse?_cons]
    simp only [List.getD_cons_succ, List.getD_cons_zero, hcount, List.head?_cons, ne_eq,
      Option.some.injEq, hshort, false_or]
    rw [ite_eq_right_iff, ← Decidable.not_and_iff_not_or_not]
    simp

/-- What is read is what was written, whatever stands behind it. Too few bytes for a header, another
first byte and fewer bytes behind the header than it announces are the ways to read nothing. -/
theorem parse?_eq_iff_encode (data : Bytes) :
    (∀ p : Packet, parse? data = some p ↔ p.Encodable ∧ ∃ rest, data = p.encode ++ rest) ∧
      (parse? data = none ↔
        data.length < 8 ∨ data.head? ≠ some dispatch ∨
          data.length < 8 + (data.getD 5 0).toNat) := by
  refine ⟨fun p => ⟨encodable_of_parse?, ?_⟩, parse?_eq_none_iff data⟩
  rintro ⟨hencodable, rest, rfl⟩
  exact parse?_encode_append hencodable rest

end Packet
end MoteLink
