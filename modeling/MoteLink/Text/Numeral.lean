import MoteLink.Text.Blank
import MoteLink.Text.Digit

/-! Integers as people write them: blanks around, one sign, decimal digits of any script, and single
underscores between digits. -/

namespace MoteLink.Text

inductive NumeralFault where
  | malformed (text : String)
  | tooLong (digits : Nat)
  deriving DecidableEq, Repr

namespace Numeral

/-- The most digits of a numeral, leading zeros included. -/
def maxDigits : Nat := 4300

def isPart (c : Char) : Bool := isDecimal c || c == '_'

/-- Underscores stand between digits only, and one at a time. -/
def wellGrouped : List Char → Bool
  | [] => false
  | [c] => c != '_'
  | '_' :: _ => false
  | _ :: '_' :: rest => wellGrouped rest
  | _ :: rest => wellGrouped rest

def value (digits : List Nat) : Nat := digits.foldl (fun n d => 10 * n + d) 0

/-- Reads an unsigned numeral. Its length is judged before what follows the digits. -/
def readDigits (text : String) (cs : List Char) : Except NumeralFault Nat :=
  let part := cs.takeWhile isPart
  let digits := part.filterMap decimalValue
  if !wellGrouped part then .error (.malformed text)
  else if maxDigits < digits.length then .error (.tooLong digits.length)
  else if part.length < cs.length then .error (.malformed text)
  else .ok (value digits)

def read (text : String) : Except NumeralFault Int :=
  match trim text.toList with
  | '+' :: rest => (readDigits text rest).map Int.ofNat
  | '-' :: rest => (readDigits text rest).map fun n => -(n : Int)
  | rest => (readDigits text rest).map Int.ofNat

/-- A text of digits alone, decimal or not. -/
def isDigits (text : String) : Bool := !text.isEmpty && text.toList.all isDigit

end Numeral
end MoteLink.Text
