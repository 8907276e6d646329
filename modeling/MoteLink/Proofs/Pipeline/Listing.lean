import Mathlib.Data.List.SplitBy
import MoteLink.Proofs.Pipeline.Desk
import MoteLink.Proofs.Time.Stamp

/-! The listing of some messages, line by line. Each character kept of a message comes with the time
at which the message came; a line of the listing is a stamp, a colon, and a line of the characters
kept. Main statement: `listing_lines`. -/

namespace MoteLink

/-- Cuts a text behind each newline. -/
def Text.lines (cs : List Char) : List (List Char) := cs.splitBy fun c _ => c != '\n'

namespace Console

theorem lines_spec (marks : List Mark) :
    marks = (lines marks).flatten ∧ [] ∉ lines marks ∧
      (∀ line ∈ lines marks, line.IsChain fun c _ => (c.2 != '\n') = true) ∧
      (lines marks).IsChain fun line next =>
        ∃ (ha : line ≠ []) (_ : next ≠ []), ((line.getLast ha).2 != '\n') = false := by
  induction marks with
  | nil => exact ⟨rfl, List.not_mem_nil, fun _ h => absurd h List.not_mem_nil, .nil⟩
  | cons c rest ih =>
    obtain ⟨hflat, hne, hchain, hends⟩ := ih
    by_cases hc : c.2 = '\n'
    · have hlines : lines (c :: rest) = [c] :: lines rest := by rw [lines, if_pos hc]
      rw [hlines]
      refine ⟨congrArg (c :: ·) hflat, ?_, ?_, ?_⟩
      · simpa using hne
      · intro line hline
        rcases List.mem_cons.1 hline with rfl | hrest
        · exact List.isChain_singleton _
        · exact hchain line hrest
      · rw [List.isChain_cons]
        refine ⟨fun next hnext => ⟨List.cons_ne_nil _ _, ?_, by simp [hc]⟩, hends⟩
        exact fun hnil => hne (hnil ▸ List.mem_of_mem_head? hnext)
    · rw [lines_cons_of_ne hc]
      cases hr : lines rest with
      | nil =>
        rw [hr] at hflat
        obtain rfl : rest = [] := hflat
        simp
      | cons line more =>
        rw [hr] at hflat hne hchain hends
        have hline : line ≠ [] := fun hnil => hne (hnil ▸ List.mem_cons_self ..)
        refine ⟨congrArg (c :: ·) hflat, ?_, ?_, ?_⟩
        · rintro (_ | ⟨_, hmore⟩)
          exact hne (List.mem_cons_of_mem _ hmore)
        · intro piece hpiece
          rcases List.mem_cons.1 hpiece with rfl | hmore
          · exact List.isChain_cons.2 ⟨fun _ _ => by simp [hc], hchain line (List.mem_cons_self ..)⟩
          · exact hchain piece (List.mem_cons_of_mem _ hmore)
        · rw [List.isChain_cons] at hends
          refine List.isChain_cons.2 ⟨fun next hnext => ?_, hends.2⟩
          obtain ⟨_, hb, hlast⟩ := hends.1 next hnext
          refine ⟨List.cons_ne_nil _ _, hb, ?_⟩
          simpa [List.getLast_cons hline] using hlast

/-- Lines stay lines when something without a newline is put in front of each. -/
theorem lines_flatMap (front : List Mark → List Char) (marks : List Mark)
    (h : ∀ line ∈ lines marks, '\n' ∉ front line) :
    Text.lines ((lines marks).flatMap fun line => front line ++ line.map Prod.snd) =
      (lines marks).map fun line => front line ++ line.map Prod.snd := by
  obtain ⟨-, hne, hchain, hends⟩ := lines_spec marks
  rw [List.flatMap_def, Text.lines]
  apply List.splitBy_flatten
  · intro hnil
    obtain ⟨line, hline, heq⟩ := List.mem_map.1 hnil
    obtain ⟨-, hmap⟩ := List.append_eq_nil_iff.1 heq
    exact hne (List.map_eq_nil_iff.1 hmap ▸ hline)
  · intro piece hpiece
    obtain ⟨line, hline, rfl⟩ := List.mem_map.1 hpiece
    have hfront : ∀ c ∈ front line, (c != '\n') = true := by
      intro c hc
      exact bne_iff_ne.2 fun e => h line hline (e ▸ hc)
    refine List.isChain_append.2 ⟨?_, (List.isChain_map _).2 (hchain line hline), ?_⟩
    · exact (List.pairwise_of_forall_mem_list fun c hc _ _ => hfront c hc).isChain
    · exact fun c hc _ _ => hfront c (List.mem_of_mem_getLast? hc)
  · refine (List.isChain_map _).2 (hends.imp fun line next ⟨ha, hb, hlast⟩ => ?_)
    have hline : line.map Prod.snd ≠ [] := fun e => ha (List.map_eq_nil_iff.1 e)
    have hnext : next.map Prod.snd ≠ [] := fun e => hb (List.map_eq_nil_iff.1 e)
    refine ⟨List.append_ne_nil_of_right_ne_nil _ hline,
      List.append_ne_nil_of_right_ne_nil _ hnext, ?_⟩
    rw [List.getLast_append_of_ne_nil _ hline, List.getLast_map]
    exact hlast

def heading : List Mark → List Char
  | [] => []
  | c :: _ => c.1.label.toList ++ [':']

theorem toList_stamped (line : List Mark) :
    (stamped line).toList = heading line ++ line.map Prod.snd := by
  cases line with
  | nil => rfl
  | cons c rest => simp [stamped, heading, plain]

theorem toList_transcript (marks : List Mark) :
    (transcript marks).toList =
      (lines marks).flatMap fun line => heading line ++ line.map Prod.snd := by
  rw [transcript, String.toList_join, List.flatMap_map]
  exact congrArg (fun f => (lines marks).flatMap f) (funext toList_stamped)

theorem flatMap_snd_lines (marks : List Mark) :
    ((lines marks).flatMap fun line => line.map Prod.snd) = marks.map Prod.snd := by
  conv_rhs => rw [(lines_spec marks).1, List.map_flatten]
  rfl

theorem dueAfter_iff (marks : List Mark) :
    dueAfter true marks = true ↔
      marks.map Prod.snd = [] ∨ (marks.map Prod.snd).getLast? = some '\n' := by
  induction marks using List.reverseRecOn with
  | nil => simp [dueAfter]
  | append_singleton front c _ =>
    rw [dueAfter_append]
    simp [dueAfter]

end Console

namespace ZonedTime

theorem Dated.label {t : ZonedTime} (h : t.Dated) :
    t.stamp = .ok t.label ∧ t.label.toList.length = 23 ∧ '\n' ∉ t.label.toList := by
  obtain ⟨cs, hstamp, hlength, hnewline⟩ := h.stamp
  have hlabel : t.label = String.ofList cs := by rw [ZonedTime.label, hstamp]; rfl
  rw [hlabel, String.toList_ofList]
  exact ⟨hstamp, hlength, hnewline⟩

end ZonedTime

namespace Desk
open Console

/-- What some messages have made a desk show, each with a block of its own. -/
structure Received (d : Desk) (payloads : List Bytes) (o : Outcome Desk Unit) : Prop where
  fine : o.result = .ok ()
  console : o.state.console = (d.console.shown (d.clock.marks payloads)).state
  blocks : ∃ writes : List (List String), writes.length = payloads.length ∧
    o.trace = (writes.flatMap fun texts => .clock :: texts.map .print ++ [.flush]) ∧
    writes.flatten = writings d.console.awaiting (d.clock.marks payloads)

theorem Received.told {d : Desk} {payload : Bytes} {payloads : List Bytes}
    {o : Outcome Desk Unit} (h : Received (d.told payload).state payloads o) :
    Received d (payload :: payloads) (o.after (d.told payload).trace) := by
  obtain ⟨hfine, hconsole, writes, hlength, htrace, hwrites⟩ := h
  have happend := Console.shown_append d.console (Console.marks d.clock.now payload)
    (d.clock.next.marks payloads)
  refine ⟨hfine, ?_, writings d.console.awaiting (Console.marks d.clock.now payload) :: writes,
    congrArg (· + 1) hlength, ?_, ?_⟩
  · rw [Clock.marks_cons, ← happend]
    exact hconsole
  · rw [List.flatMap_cons, ← htrace]
    rfl
  · rw [Clock.marks_cons, writings_append, List.flatten_cons, hwrites]
    rfl

theorem each_receive {d : Desk} {deliveries : List (Delivery Unit)} (whole : d.console.broken = [])
    (printf : ∀ x ∈ deliveries, x.message.kind = .printf)
    (dated : ∀ t ∈ d.clock.readings deliveries.length, t.Dated) :
    Received d (deliveries.map (·.message.data)) (Act.each receive deliveries d) := by
  induction deliveries generalizing d with
  | nil => exact ⟨rfl, rfl, [], rfl, rfl, rfl⟩
  | cons x rest ih =>
    have hnow := (dated d.clock.now (List.mem_cons_self ..)).label.1
    have hreceive := receive_eq (printf x (List.mem_cons_self ..)) hnow whole
    have hrest := ih (d := (d.told x.message.data).state) whole
      (fun y hy => printf y (List.mem_cons_of_mem _ hy))
      (fun t ht => dated t (List.mem_cons_of_mem _ ht))
    rw [Act.each, Act.run_bind, hreceive]
    exact hrest.told

theorem snd_marks (c : Clock) (payloads : List Bytes) :
    (c.marks payloads).map Prod.snd = payloads.flatMap fun data => printable (data.take 28) := by
  induction payloads generalizing c with
  | nil => rfl
  | cons payload rest ih =>
    rw [Clock.marks_cons, List.map_append, ih, List.flatMap_cons, Console.marks, List.map_map]
    exact congrArg (· ++ _) (List.map_id _)

theorem mem_readings_of_mem_marks {c : Clock} {payloads : List Bytes} {mark : Mark}
    (h : mark ∈ c.marks payloads) : mark.1 ∈ c.readings payloads.length := by
  obtain ⟨⟨time, payload⟩, hzip, hmark⟩ := List.mem_flatMap.1 h
  obtain ⟨_, _, rfl⟩ := List.mem_map.1 hmark
  exact (List.of_mem_zip hzip).1

/-- Every line has a first character, and that came with a reading of the clock. -/
theorem heading_of_dated {c : Clock} {payloads : List Bytes}
    (dated : ∀ t ∈ c.readings payloads.length, t.Dated) {line : List Mark}
    (hline : line ∈ lines (c.marks payloads)) :
    (heading line).length = 24 ∧ '\n' ∉ heading line := by
  obtain ⟨hflat, hne, -⟩ := lines_spec (c.marks payloads)
  cases line with
  | nil => exact absurd hline hne
  | cons mark rest =>
    have hmem : mark ∈ c.marks payloads := by
      rw [hflat]
      exact List.mem_flatten.2 ⟨_, hline, List.mem_cons_self ..⟩
    have hdated := dated mark.1 (mem_readings_of_mem_marks hmem)
    obtain ⟨-, hlabel, hnewline⟩ := hdated.label
    exact ⟨by simp [heading, hlabel], by simp [heading, hnewline]⟩

theorem printed_blocks (writes : List (List String)) :
    Trace.printed (writes.flatMap fun texts => .clock :: texts.map .print ++ [.flush]) =
      String.join writes.flatten := by
  induction writes with
  | nil => rfl
  | cons texts rest ih =>
    have hblock : Trace.printed (.clock :: texts.map .print ++ [.flush]) = String.join texts := by
      rw [Trace.printed_append]
      exact (String.append_empty).trans (Trace.printed_map_print texts)
    rw [List.flatMap_cons, Trace.printed_append, hblock, ih, List.flatten_cons, String.join_append]

/-- What is kept of some messages is listed line by line, each line behind the stamp of the message
that its first character came with. Each message reads the clock once, and flushes once when it has
written what it holds. -/
theorem listing_lines {d : Desk} {deliveries : List (Delivery Unit)} (fresh : d.console = {})
    (printf : ∀ x ∈ deliveries, x.message.kind = .printf)
    (dated : ∀ t ∈ d.clock.readings deliveries.length, t.Dated) :
    let payloads := deliveries.map (·.message.data)
    let kept := payloads.flatMap fun data => printable (data.take 28)
    let marks := d.clock.marks payloads
    let o := Act.each receive deliveries d
    o.result = .ok () ∧
      marks.map Prod.snd = kept ∧
      Text.lines o.trace.printed.toList = (lines marks).map (fun line => (stamped line).toList) ∧
      Text.lines kept = (lines marks).map (fun line => line.map Prod.snd) ∧
      ((Text.lines o.trace.printed.toList).flatMap fun line => line.drop 24) = kept ∧
      (∀ t ∈ d.clock.readings deliveries.length, t.stamp = .ok t.label) ∧
      (o.state.console.awaiting = true ↔ kept = [] ∨ kept.getLast? = some '\n') ∧
      ∃ writes : List (List String), writes.length = deliveries.length ∧
        o.trace = writes.flatMap fun texts => .clock :: texts.map .print ++ [.flush] := by
  intro payloads kept marks o
  obtain ⟨hfine, hconsole, writes, hlength, htrace, hwrites⟩ :=
    each_receive (by rw [fresh]) printf dated
  have hkept : marks.map Prod.snd = kept := snd_marks _ _
  have hprinted : o.trace.printed.toList =
      (lines marks).flatMap fun line => heading line ++ line.map Prod.snd := by
    rw [show o.trace = _ from htrace, printed_blocks, hwrites, fresh, join_writings, if_pos rfl,
      toList_transcript]
  have hheading : ∀ line ∈ lines marks, (heading line).length = 24 ∧ '\n' ∉ heading line := by
    intro line hline
    apply heading_of_dated _ hline
    rwa [List.length_map]
  have hlines := lines_flatMap heading marks fun line hline => (hheading line hline).2
  have hplain := lines_flatMap (fun _ => []) marks fun _ _ => List.not_mem_nil
  have hsnd := (flatMap_snd_lines marks).trans hkept
  rw [← hprinted] at hlines
  refine ⟨hfine, hkept, ?_, ?_, ?_, fun t ht => (dated t ht).label.1, ?_, writes, ?_, htrace⟩
  · rw [hlines]
    exact List.map_congr_left fun line _ => (toList_stamped line).symm
  · rw [← hsnd]
    exact hplain
  · rw [hlines, List.flatMap_map, ← hsnd]
    refine congrArg List.flatten (List.map_congr_left fun line hline => ?_)
    exact List.drop_left' (hheading line hline).1
  · rw [show o.state.console = _ from hconsole, fresh, ← hkept]
    exact dueAfter_iff marks
  · rw [hlength, List.length_map]

theorem listing_lines_broken :
    let clock : Clock :=
      { now := { shown := ⟨⟨1999, 12, 31⟩, 23, 59, 59, 999999⟩, offset := 0 }
        later := [{ shown := ⟨⟨2000, 1, 1⟩, 1, 0, 0, 1000⟩, offset := 3600000000 }] }
    let deliveries : List (Delivery Unit) :=
      [[65, 66], [0, 13], [67, 10, 10, 68]].map fun data =>
        ⟨(), 1, { kind := .printf, data }⟩
    let o := Act.each receive deliveries { clock }
    (Text.lines o.trace.printed.toList).map String.ofList =
        ["1999/12/31 23:59:59.999:ABC\n", "2000/01/01 00:00:00.001:\n",
          "2000/01/01 00:00:00.001:D"] ∧
      o.state.console.awaiting = false := by
  intro clock deliveries o
  have hprintf : ∀ x ∈ deliveries, x.message.kind = .printf := by decide
  have hdated : ∀ t ∈ clock.readings deliveries.length, t.Dated := by
    rintro t (_ | ⟨_, _ | ⟨_, _ | ⟨_, hnone⟩⟩⟩)
    · exact ⟨⟨⟨1999, 12, 31⟩, 23, 59, 59, 999999⟩, by decide +kernel, by decide, by decide⟩
    · exact ⟨⟨⟨2000, 1, 1⟩, 0, 0, 0, 1000⟩, by decide +kernel, by decide, by decide⟩
    · exact ⟨⟨⟨2000, 1, 1⟩, 0, 0, 0, 1000⟩, by decide +kernel, by decide, by decide⟩
    · exact absurd hnone List.not_mem_nil
  obtain ⟨-, -, hlines, -, -, -, hawaiting, -⟩ := listing_lines (d := { clock }) rfl hprintf hdated
  refine ⟨?_, ?_⟩
  · rw [hlines]
    decide +kernel
  · rw [← Bool.not_eq_true, hawaiting]
    decide +kernel

end Desk
end MoteLink
