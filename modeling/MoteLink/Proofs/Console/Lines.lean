import MoteLink.Console

/-! The text on a console, line by line. A transcript puts one stamp before each line, that of its
first character. Main statement: what is written character by character, with a stamp wherever one
is due, is the transcript. -/

namespace MoteLink

def ZonedTime.label (t : ZonedTime) : String := t.stamp.toOption.getD ""

namespace Console

/-- A character to print and the time at which its message came. -/
abbrev Mark := ZonedTime × Char

/-- Cuts behind each newline. -/
def lines : List Mark → List (List Mark)
  | [] => []
  | c :: rest =>
    if c.2 = '\n' then [c] :: lines rest
    else
      match lines rest with
      | [] => [[c]]
      | line :: more => (c :: line) :: more

def plain (line : List Mark) : String := String.ofList (line.map Prod.snd)

def stamped : List Mark → String
  | [] => ""
  | c :: rest => c.1.label ++ ":" ++ plain (c :: rest)

def transcript (marks : List Mark) : String := String.join ((lines marks).map stamped)

/-- The first line is plain where its stamp has been written already. -/
def continuation : List (List Mark) → String
  | [] => ""
  | line :: more => plain line ++ String.join (more.map stamped)

/-- What is written one by one, if a stamp is due first or not. -/
def writings : Bool → List Mark → List String
  | _, [] => []
  | due, c :: rest =>
    (if due then [c.1.label, ":"] else []) ++
      String.singleton c.2 :: writings (decide (c.2 = '\n')) rest

/-- Whether a stamp is due behind some characters. -/
def dueAfter : Bool → List Mark → Bool
  | due, [] => due
  | _, c :: rest => dueAfter (decide (c.2 = '\n')) rest

theorem dueAfter_append (due : Bool) (a b : List Mark) :
    dueAfter due (a ++ b) = dueAfter (dueAfter due a) b := by
  induction a generalizing due with
  | nil => rfl
  | cons c rest ih => exact ih _

theorem writings_append (due : Bool) (a b : List Mark) :
    writings due (a ++ b) = writings due a ++ writings (dueAfter due a) b := by
  induction a generalizing due with
  | nil => rfl
  | cons c rest ih => simp only [List.cons_append, writings, dueAfter, ih, List.append_assoc]

theorem plain_cons (c : Mark) (line : List Mark) :
    plain (c :: line) = String.singleton c.2 ++ plain line := by
  rw [plain, plain, String.singleton_eq_ofList, ← String.ofList_append]
  rfl

theorem lines_cons_of_ne {c : Mark} (h : c.2 ≠ '\n') (rest : List Mark) :
    lines (c :: rest) = (c :: (lines rest).headD []) :: (lines rest).tail := by
  cases hr : lines rest <;> simp [lines, h, hr]

theorem continuation_eq (pieces : List (List Mark)) :
    continuation pieces = plain (pieces.headD []) ++ String.join (pieces.tail.map stamped) := by
  cases pieces <;> rfl

theorem transcript_cons (c : Mark) (rest : List Mark) :
    transcript (c :: rest) = c.1.label ++ (":" ++ continuation (lines (c :: rest))) := by
  by_cases h : c.2 = '\n'
  · simp [transcript, lines, h, stamped, continuation, String.append_assoc]
  · simp [transcript, lines_cons_of_ne h, stamped, continuation, String.append_assoc]

theorem continuation_cons (c : Mark) (rest : List Mark) :
    continuation (lines (c :: rest)) = String.singleton c.2 ++
      if c.2 = '\n' then transcript rest else continuation (lines rest) := by
  by_cases h : c.2 = '\n'
  · have hline : plain [c] = String.singleton c.2 := by
      rw [plain_cons]
      exact String.append_empty
    rw [if_pos h, lines, if_pos h, continuation, hline, transcript]
  · rw [if_neg h, lines_cons_of_ne h, continuation, plain_cons, continuation_eq (lines rest),
      String.append_assoc]

theorem join_writings (due : Bool) (marks : List Mark) :
    String.join (writings due marks) =
      if due then transcript marks else continuation (lines marks) := by
  induction marks generalizing due with
  | nil => cases due <;> rfl
  | cons c rest ih =>
    have hplain : String.join (String.singleton c.2 :: writings (decide (c.2 = '\n')) rest) =
        continuation (lines (c :: rest)) := by
      rw [String.join_cons, ih, continuation_cons]
      by_cases h : c.2 = '\n' <;> simp [h]
    cases due with
    | true => simpa [writings, transcript_cons, String.join_cons] using hplain
    | false => exact hplain

end Console
end MoteLink
