import MoteLink.Proofs.Frame.Segment

/-! A receiver against a whole stream. The stream is cut at its delimiters, and each segment between
two of them meets its verdict. Main statements: what a receiver says is the list of verdicts, and a
body is handed out at the delimiter that closes its segment. -/

namespace MoteLink.Frame
open Receiver Signal

/-- The segments between delimiters that follow each other. -/
def closed (stream : Bytes) : List Bytes := (stream.splitOn delimiter).tail.dropLast

/-- What follows the last delimiter, if there is one. -/
def unclosed (stream : Bytes) : Option Bytes := (stream.splitOn delimiter).tail.getLast?

theorem segment_induction {P : Bytes → Prop} (last : ∀ g, delimiter ∉ g → P g)
    (next : ∀ g rest, delimiter ∉ g → P rest → P (g ++ delimiter :: rest)) (stream : Bytes) :
    P stream := by
  have key : ∀ n, ∀ s : Bytes, s.length < n → P s := by
    intro n
    induction n with
    | zero => exact fun s h => absurd h (Nat.not_lt_zero _)
    | succ n ih =>
      intro s hlen
      by_cases hs : delimiter ∈ s
      · obtain ⟨g, rest, rfl, hg⟩ := List.eq_append_cons_of_mem hs
        refine next g rest hg (ih rest ?_)
        simp only [List.length_append, List.length_cons] at hlen
        omega
      · exact last s hs
  exact key _ stream (Nat.lt_succ_self _)

/-- From a delimiter on the last piece of the stream is held, and every other has its verdict. -/
theorem run_ready (stream : Bytes) :
    (ready.run stream).1 = holding ((stream.splitOn delimiter).getLastD []) ∧
      loud (ready.run stream).2 =
        (stream.splitOn delimiter).dropLast.filterMap verdict ++
          (overflow ((stream.splitOn delimiter).getLastD [])).toList := by
  induction stream using segment_induction with
  | last g hg => simpa [List.splitOn_eq_singleton hg] using run_segment hg
  | next g rest hg ih =>
    have hcut : (g ++ delimiter :: rest).splitOn delimiter = g :: rest.splitOn delimiter :=
      List.splitOn_append_cons_self_of_not_mem hg rest
    -- there is a piece behind every delimiter, so `g` is not the last one
    obtain ⟨piece, pieces, hrest⟩ :=
      List.exists_cons_of_ne_nil (List.splitOn_ne_nil delimiter rest)
    obtain ⟨hstate, hloud⟩ := run_closed_segment hg
    rw [hcut, List.append_cons, run_append, hstate, loud_append, hloud]
    rw [hrest] at ih ⊢
    obtain ⟨hlast, hmore⟩ := ih
    refine ⟨by simpa using hlast, ?_⟩
    rw [hmore]
    cases hv : verdict g <;> simp [hv]

theorem run_fresh (stream : Bytes) :
    (({} : Receiver).run stream).1 = ((unclosed stream).map holding).getD {} ∧
      loud (({} : Receiver).run stream).2 =
        (closed stream).filterMap verdict ++ ((unclosed stream).bind overflow).toList := by
  by_cases h : delimiter ∈ stream
  · obtain ⟨noise, rest, rfl, hnoise⟩ := List.eq_append_cons_of_mem h
    have hcut : (noise ++ delimiter :: rest).splitOn delimiter = noise :: rest.splitOn delimiter :=
      List.splitOn_append_cons_self_of_not_mem hnoise rest
    obtain ⟨piece, pieces, hrest⟩ :=
      List.exists_cons_of_ne_nil (List.splitOn_ne_nil delimiter rest)
    obtain ⟨hstate, hloud⟩ := run_hunting hnoise
    have hready : ({} : Receiver).step delimiter = (ready, .quiet) := rfl
    obtain ⟨hlast, hmore⟩ := run_ready rest
    rw [run_append, hstate, loud_append, hloud, closed, unclosed, hcut]
    simp only [run, hready]
    rw [hrest] at hlast hmore ⊢
    refine ⟨by simp [hlast, List.getLast?_cons], ?_⟩
    simpa [loud, List.getLast?_cons] using hmore
  · obtain ⟨hstate, hloud⟩ := run_hunting h
    rw [closed, unclosed, List.splitOn_eq_singleton h]
    exact ⟨hstate, hloud⟩

theorem overflow_ne_body {g : Bytes} {body : Bytes} : overflow g ≠ some (.body body) := by
  unfold overflow
  split <;> simp

theorem step_holding_body (g : Bytes) (b : UInt8) (body : Bytes) :
    ((holding g).step b).2 = .body body ↔ b = delimiter ∧ verdict g = some (.body body) := by
  by_cases hb : b = delimiter
  · subst hb
    rw [step_holding_delimiter]
    by_cases hne : g = []
    · simp [hne, verdict]
    · cases ho : overflow g with
      | some signal =>
        have hs : signal ≠ .body body := fun e => overflow_ne_body (e ▸ ho)
        simp [verdict, hne, ho, hs]
      | none => simp [verdict, hne, ho]
  · rw [step_holding g hb]
    have hover := @overflow_ne_body (g ++ [b]) body
    cases ho : overflow (g ++ [b]) with
    | some signal =>
      have hs : signal ≠ .body body := fun e => overflow_ne_body (e ▸ ho)
      split <;> simp [hb, hs]
    | none => simp [hb]

/-- A receiver says what the whole stream shows: each closed segment has its one verdict, and each
body comes with the delimiter that closes its segment. -/
theorem run_eq_verdicts (stream : Bytes) :
    loud (({} : Receiver).run stream).2 =
        (closed stream).filterMap verdict ++ ((unclosed stream).bind overflow).toList ∧
      ∀ (before : Bytes) (b : UInt8) (body : Bytes),
        ((({} : Receiver).run before).1.step b).2 = .body body ↔
          b = delimiter ∧ ∃ g, unclosed before = some g ∧ verdict g = some (.body body) := by
  refine ⟨(run_fresh stream).2, fun before b body => ?_⟩
  rw [(run_fresh before).1]
  cases unclosed before with
  | none => by_cases hb : b = delimiter <;> simp [step, hb]
  | some g => simpa using step_holding_body g b body

/-- The bytes with each pair of an escape mark and a byte replaced; a mark without a byte stays. -/
def replaced : Bytes → Bytes
  | [] => []
  | [b] => [b]
  | b :: x :: rest =>
    if b = escapeMark then toggle x :: replaced rest else b :: replaced (x :: rest)

theorem replaced_eq (g : Bytes) :
    replaced g = unstuff g ++ if dangling g then [escapeMark] else [] := by
  fun_induction replaced g with
  | case1 => rfl
  | case2 b => by_cases h : b = escapeMark <;> simp [unstuff, dangling, h]
  | case3 x rest ih => simpa [unstuff, dangling] using ih
  | case4 b x rest h ih => simpa [unstuff, dangling, h] using ih

/-- A mark without a byte does not count as content. Behind as much content as fits it is what drops
the segment, not its length. -/
theorem escape_behind_full_content :
    let g := List.replicate 264 0 ++ [escapeMark]
    delimiter ∉ g ∧ capacity < (replaced g).length ∧
      loud (({} : Receiver).run (delimiter :: g ++ [delimiter])).2 = [.dropped .brokenEscape] := by
  decide +kernel

end MoteLink.Frame
