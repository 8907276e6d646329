import MoteLink.Bytes
import MoteLink.Text.Padded
import MoteLink.Text.Printable

/-! Quoted forms of texts and byte strings in reports. Single quotes surround the text unless it
holds one and no double quote; what does not print plainly is escaped. -/

namespace MoteLink.Text

def quoteMark (cs : List Char) : Char :=
  if cs.contains '\'' && !cs.contains '"' then '"' else '\''

/-- Two, four or eight hexadecimal digits, as few as hold the number. -/
def escapeNumber (c : Char) : List Char :=
  if c.toNat < 0x100 then '\\' :: 'x' :: hex 2 c.toNat
  else if c.toNat < 0x10000 then '\\' :: 'u' :: hex 4 c.toNat
  else '\\' :: 'U' :: hex 8 c.toNat

def escapeChar (plain : Char → Bool) (mark c : Char) : List Char :=
  if c = mark ∨ c = '\\' then ['\\', c]
  else if c = '\t' then ['\\', 't']
  else if c = '\n' then ['\\', 'n']
  else if c = '\r' then ['\\', 'r']
  else if plain c then [c]
  else escapeNumber c

def quote (plain : Char → Bool) (cs : List Char) : List Char :=
  let mark := quoteMark cs
  mark :: cs.flatMap (escapeChar plain mark) ++ [mark]

/-- A text: every printable character stands for itself. -/
def quoteText (s : String) : String := String.ofList (quote isPrintable s.toList)

/-- A byte string: printable ASCII stands for itself, and a letter in front tells it from a text. -/
def quoteBytes (data : Bytes) : String := String.ofList ('b' :: quote isPlainAscii data.latin)

end MoteLink.Text
