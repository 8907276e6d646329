/-! Numbers in digits, with zeros in front up to a width. -/

namespace MoteLink.Text

def padded (base width n : Nat) : List Char :=
  let digits := Nat.toDigits base n
  List.replicate (width - digits.length) '0' ++ digits

def decimal (width n : Nat) : List Char := padded 10 width n

/-- Lower case. -/
def hex (width n : Nat) : List Char := padded 16 width n

/-- A sign if negative, then the digits. -/
def integer (n : Int) : List Char :=
  if n < 0 then '-' :: decimal 1 n.natAbs else decimal 1 n.natAbs

def number (n : Int) : String := String.ofList (integer n)

end MoteLink.Text
