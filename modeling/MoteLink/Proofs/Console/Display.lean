import MoteLink.Proofs.Console.Lines
import MoteLink.Proofs.Packet.Views

/-! What a console makes of a message, as long as its output takes every write. Main statement:
`display_eq`. -/

namespace MoteLink

theorem Act.each_range {f : Nat → Act σ Unit} {g : α → Act σ Unit} {data : List α}
    (h : ∀ i (hi : i < data.length), f i = g (data.get ⟨i, hi⟩)) :
    Act.each f (List.range data.length) = Act.each g data := by
  -- what was gone through already gives the position of the next element
  have key : ∀ (front back : List α), data = front ++ back →
      Act.each f (List.range' front.length back.length) = Act.each g back := by
    intro front back
    induction back generalizing front with
    | nil => exact fun _ => rfl
    | cons a back ih =>
      intro hdata
      have hlt : front.length < data.length := by simp [hdata]
      have hfirst : f front.length = g a := by
        rw [h _ hlt]
        congr 1
        simp [hdata]
      have hrest := ih (front ++ [a]) (by simp [hdata])
      rw [List.length_append, List.length_singleton] at hrest
      rw [List.length_cons, List.range'_succ, Act.each, Act.each, hfirst, hrest]
  rw [List.range_eq_range']
  exact key [] data rfl

namespace Console

def printable (data : Bytes) : List Char := Bytes.latin (data.filter fun b => b ≠ 0 ∧ b ≠ 13)

/-- What is printed of a payload, with the time at which it came. -/
def marks (now : ZonedTime) (payload : Bytes) : List Mark :=
  (printable (payload.take 28)).map (now, ·)

/-- A console behind some characters. -/
def shown (s : Console) (marks : List Mark) : Outcome Console Unit :=
  { result := .ok ()
    state :=
      { s with
        awaiting := dueAfter s.awaiting marks
        writes := s.writes + (writings s.awaiting marks).length }
    trace := (writings s.awaiting marks).map .print }

theorem shown_append (s : Console) (a b : List Mark) :
    ((s.shown a).state.shown b).after (s.shown a).trace = s.shown (a ++ b) := by
  simp [shown, Outcome.after, dueAfter_append, writings_append, Nat.add_assoc]

theorem write_eq {s : Console} (h : s.broken = []) (text : String) :
    write text s = ⟨.ok (), { s with writes := s.writes + 1 }, [.print text]⟩ := by
  obtain ⟨awaiting, writes, broken⟩ := s
  obtain rfl : broken = [] := h
  rfl

theorem put_of_skipped {c : Char} (h : isSkipped c) (now : ZonedTime) (s : Console) :
    put now c s = s.shown [] := by
  simp [put, h, shown, dueAfter, writings]

theorem put_of_not_skipped {c : Char} (h : ¬ isSkipped c) {now : ZonedTime}
    (hnow : now.stamp = .ok now.label) {s : Console} (hs : s.broken = []) :
    put now c s = s.shown [(now, c)] := by
  obtain ⟨awaiting, writes, broken⟩ := s
  obtain rfl : broken = [] := hs
  have hbegin : beginLine now ⟨awaiting, writes, []⟩ =
      ⟨.ok (), ⟨false, writes + if awaiting then 2 else 0, []⟩,
        if awaiting then [.print now.label, .print ":"] else []⟩ := by
    cases awaiting with
    | true =>
      simp [beginLine, hnow, Act.lift, Act.run_bind, write_eq, Outcome.after]
    | false => rfl
  have hput : put now c = beginLine now >>= fun _ => write (String.singleton c) >>= fun _ =>
      if c = '\n' then Act.update fun c => { c with awaiting := true } else pure () := by
    simp [put, h]
  rw [hput, Act.bind_ok hbegin, Act.bind_ok (write_eq rfl _)]
  by_cases hc : c = '\n' <;> cases awaiting <;>
    simp [Outcome.after, shown, dueAfter, writings, hc]

theorem isSkipped_ofNat (b : UInt8) : isSkipped (Char.ofNat b.toNat) ↔ b = 0 ∨ b = 13 := by
  -- there are few enough bytes to try them all
  have key : ∀ n : Fin 256, isSkipped (Char.ofNat n) ↔ n = 0 ∨ n = 13 := by decide +kernel
  have hb := key ⟨b.toNat, b.toNat_lt⟩
  rw [Fin.ext_iff, Fin.ext_iff] at hb
  rw [← UInt8.toNat_inj, ← UInt8.toNat_inj]
  exact hb

theorem printable_cons (b : UInt8) (rest : Bytes) :
    printable (b :: rest) = printable [b] ++ printable rest := by
  by_cases h : b ≠ 0 ∧ b ≠ 13 <;> simp [printable, Bytes.latin, h]

theorem put_eq (b : UInt8) {now : ZonedTime} (hnow : now.stamp = .ok now.label) {s : Console}
    (hs : s.broken = []) :
    put now (Char.ofNat b.toNat) s = s.shown ((printable [b]).map (now, ·)) := by
  have hskip := isSkipped_ofNat b
  by_cases h : b = 0 ∨ b = 13
  · rw [put_of_skipped (hskip.2 h)]
    rcases h with rfl | rfl <;> rfl
  · rw [put_of_not_skipped (fun hs => h (hskip.1 hs)) hnow hs]
    rw [not_or] at h
    simp [printable, Bytes.latin, h]

theorem each_put (data : Bytes) {now : ZonedTime} (hnow : now.stamp = .ok now.label) {s : Console}
    (hs : s.broken = []) :
    Act.each (fun b => put now (Char.ofNat b.toNat)) data s =
      s.shown ((printable data).map (now, ·)) := by
  induction data generalizing s with
  | nil => rfl
  | cons b rest ih =>
    have hrest := ih (s := (s.shown ((printable [b]).map (now, ·))).state) hs
    rw [printable_cons b rest, List.map_append, ← shown_append, ← hrest]
    exact Act.bind_ok (put_eq b hnow hs) _

theorem printable_fit (data : Bytes) :
    printable (Buffer.fit 28 data) = printable (data.take 28) := by
  simp [printable, Buffer.fit, List.filter_append, Bytes.latin]

theorem bufferElement_eq {m : Message} (hm : m.kind = .printf) {i : Nat}
    (hi : i < (Buffer.fit 28 m.data).length) :
    m.bufferElement (Int.ofNat i) = .ok ((Buffer.fit 28 m.data).get ⟨i, hi⟩) := by
  have hsize : IsWord (Buffer.fit 28 m.data).length := by
    rw [Message.length_buffer (by decide) m.data]
    decide
  rw [Message.bufferElement_eq (congrArg Kind.buffer hm)]
  exact Buffer.element_natCast hsize (List.getElem?_eq_getElem hi)

/-- A message writes its characters, with one stamp of its time before each line that begins in it,
and then flushes once. -/
theorem display_eq {m : Message} (hm : m.kind = .printf) {now : ZonedTime}
    (hnow : now.stamp = .ok now.label) {s : Console} (hs : s.broken = []) :
    display now m s =
      ⟨.ok (), (s.shown (marks now m.data)).state,
        (s.shown (marks now m.data)).trace ++ [.flush]⟩ := by
  have hlen := Buffer.length_fit (show (0 : Int) ≤ 28 by decide) m.data
  have hrange : List.range elements = List.range (Buffer.fit 28 m.data).length := by
    rw [hlen]
    rfl
  have heach := each_put (Buffer.fit 28 m.data) hnow hs
  rw [printable_fit] at heach
  rw [display, hrange, Act.each_range (g := fun b => put now (Char.ofNat b.toNat))]
  · exact (Act.bind_ok heach _).trans rfl
  · intro i hi
    rw [bufferElement_eq hm hi]
    rfl

end Console
end MoteLink
