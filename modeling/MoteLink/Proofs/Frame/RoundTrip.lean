import MoteLink.Proofs.Frame.Segment

/-! Frames read back from a stream, whatever came before them. Main statement: behind any noise the
bodies that fit are handed out, all of them and in order, whether each frame has an opening
delimiter of its own or shares the closing one of the frame before. -/

namespace MoteLink.Frame
open Receiver Signal

/-- With its checksum the body is neither too short nor too long for a receiver. -/
def Fits (body : Bytes) : Prop := 1 ≤ body.length ∧ body.length ≤ 262

instance : DecidablePred Fits := fun _ => inferInstanceAs (Decidable (_ ∧ _))

theorem length_summed (body : Bytes) : (summed body).length = body.length + 2 := by
  simp [summed, Bytes.ofWord]

theorem closing_stuff_summed {body : Bytes} (h : body ≠ []) :
    closing (stuff (summed body)) = .body body := by
  have hfin := finish_holding (dangling_stuff (summed body))
  simpa [finish, unstuff_stuff, judge_summed h] using (congrArg Prod.snd hfin).symm

theorem verdict_stuff_summed {body : Bytes} (h : Fits body) :
    verdict (stuff (summed body)) = some (.body body) := by
  have hlen : (unstuff (stuff (summed body))).length = body.length + 2 := by
    rw [unstuff_stuff, length_summed]
  have hne : stuff (summed body) ≠ [] := by
    intro e
    simp [e, unstuff] at hlen
  have hfit : ¬ capacity < (unstuff (stuff (summed body))).length := by
    have := h.2
    rw [hlen, capacity]
    omega
  have hpos : body ≠ [] := List.length_pos_iff.1 h.1
  simp [verdict, hne, overflow, hfit, closing_stuff_summed hpos]

theorem bodies_verdict (body : Bytes) :
    bodies (verdict (stuff (summed body))).toList = if Fits body then [body] else [] := by
  by_cases hfits : Fits body
  · rw [verdict_stuff_summed hfits, if_pos hfits]
    rfl
  · have hlen : (unstuff (stuff (summed body))).length = body.length + 2 := by
      rw [unstuff_stuff, length_summed]
    have hne : stuff (summed body) ≠ [] := by
      intro e
      simp [e, unstuff] at hlen
    rw [verdict, if_neg hne, if_neg hfits]
    by_cases hnil : body = []
    · subst hnil
      simp [overflow, closing, dangling_stuff, unstuff_stuff, length_summed, bodies, Signal.body?,
        capacity]
    · have hpos := List.length_pos_iff.2 hnil
      have hover : capacity < (unstuff (stuff (summed body))).length := by
        rw [hlen, capacity]
        unfold Fits at hfits
        omega
      simp [overflow, hover, bodies, Signal.body?]

theorem run_tail_encode (body : Bytes) :
    (ready.run (encode body).tail).1 = ready ∧
      loud (ready.run (encode body).tail).2 = (verdict (stuff (summed body))).toList :=
  run_closed_segment (delimiter_not_mem_stuff (summed body))

/-- A frame, with or without its opening delimiter. -/
def spell (opened : Bool) (body : Bytes) : Bytes :=
  if opened then encode body else (encode body).tail

theorem run_spell (opened : Bool) (frames : List Bytes) :
    (ready.run (frames.flatMap (spell opened))).1 = ready ∧
      bodies (ready.run (frames.flatMap (spell opened))).2 = frames.filter Fits := by
  induction frames with
  | nil => exact ⟨rfl, rfl⟩
  | cons body more ih =>
    have hone : (ready.run (spell opened body)).1 = ready ∧
        bodies (ready.run (spell opened body)).2 = if Fits body then [body] else [] := by
      obtain ⟨hstate, hloud⟩ := run_tail_encode body
      rw [← bodies_verdict, ← hloud, bodies_loud]
      cases opened with
      | true => exact ⟨hstate, rfl⟩
      | false => exact ⟨hstate, rfl⟩
    obtain ⟨hstate, hbodies⟩ := ih
    rw [List.flatMap_cons, run_append, hone.1, bodies_append, hone.2]
    refine ⟨hstate, ?_⟩
    rw [hbodies, List.filter_cons]
    by_cases hf : Fits body <;> simp [hf]

theorem decode_append_spell (noise first : Bytes) (opened : Bool) (more : List Bytes) :
    decode (noise ++ encode first ++ more.flatMap (spell opened)) =
        decode (noise ++ [delimiter]) ++ (first :: more).filter Fits ∧
      (({} : Receiver).run (noise ++ encode first ++ more.flatMap (spell opened))).1 = ready := by
  -- the delimiter that opens the first frame counts as the end of the noise
  have hsplit : noise ++ encode first ++ more.flatMap (spell opened) =
      noise ++ [delimiter] ++ ([first].flatMap (spell false) ++ more.flatMap (spell opened)) := by
    simp [spell, encode]
  have hready : (({} : Receiver).run (noise ++ [delimiter])).1 = ready := by
    rw [run_append]
    exact step_delimiter_state _
  obtain ⟨hfirst, hbody⟩ := run_spell false [first]
  obtain ⟨hmore, hbodies⟩ := run_spell opened more
  rw [hsplit, decode, run_append, hready, run_append, hfirst]
  refine ⟨?_, hmore⟩
  rw [bodies_append, bodies_append, hbody, hbodies, ← List.filter_append]
  rfl

/-- Reading resynchronises at the first frame, and no frame disturbs another. -/
theorem decode_append_frames (noise first : Bytes) (more : List Bytes) :
    decode (noise ++ (first :: more).flatMap encode) =
        decode (noise ++ [delimiter]) ++
          (first :: more).filter (fun body => 1 ≤ body.length ∧ body.length ≤ 262) ∧
      (({} : Receiver).run (noise ++ (first :: more).flatMap encode)).1 =
        { phase := .inside, content := [] } ∧
      decode (noise ++ encode first ++ more.flatMap fun body => (encode body).tail) =
        decode (noise ++ [delimiter]) ++
          (first :: more).filter (fun body => 1 ≤ body.length ∧ body.length ≤ 262) ∧
      (({} : Receiver).run
          (noise ++ encode first ++ more.flatMap fun body => (encode body).tail)).1 =
        { phase := .inside, content := [] } := by
  obtain ⟨hbodies, hstate⟩ := decode_append_spell noise first true more
  obtain ⟨hbodies', hstate'⟩ := decode_append_spell noise first false more
  rw [List.flatMap_cons, ← List.append_assoc]
  exact ⟨hbodies, hstate, hbodies', hstate'⟩

theorem run_encode {frames : List Bytes} (h : ∀ body ∈ frames, Fits body) :
    loud (ready.run (frames.flatMap encode)).2 = frames.map .body := by
  induction frames with
  | nil => rfl
  | cons body more ih =>
    obtain ⟨hfits, hmore⟩ := List.forall_mem_cons.1 h
    obtain ⟨hstate, hloud⟩ := run_tail_encode body
    rw [verdict_stuff_summed hfits] at hloud
    have hready : ready.run (encode body) =
        (ready, .quiet :: (ready.run (encode body).tail).2) := Prod.ext hstate rfl
    rw [List.flatMap_cons, run_append, hready, loud_append, ih hmore]
    exact congrArg (· ++ _) hloud

theorem loud_noise_frames {noise : Bytes} (hnoise : delimiter ∉ noise) {frames : List Bytes}
    (h : ∀ body ∈ frames, Fits body) :
    loud (({} : Receiver).run (noise ++ frames.flatMap encode)).2 = frames.map .body := by
  obtain ⟨hstate, hloud⟩ := run_hunting hnoise
  rw [run_append, hstate, loud_append, hloud, ← run_encode h]
  cases frames <;> rfl

end MoteLink.Frame
