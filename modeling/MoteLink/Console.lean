import MoteLink.Act
import MoteLink.Time.Stamp

/-! The console prints the text buffers of messages. Each line begins with the time at which the
message that holds its first character came. Zeros and carriage returns are passed over. -/

namespace MoteLink

/-- The output stream faults at the writes numbered in `broken`, counted from one. -/
structure Console where
  awaiting : Bool := true
  writes : Nat := 0
  broken : List Nat := []
  deriving DecidableEq, Repr

/-- The readings of a clock; the last one stays. -/
structure Clock where
  now : ZonedTime
  later : List ZonedTime := []
  deriving DecidableEq, Repr

namespace Clock

def read : Act Clock ZonedTime := do
  Act.emit .clock
  let now ← Act.look (·.now)
  Act.update fun c =>
    match c.later with
    | [] => c
    | next :: rest => { now := next, later := rest }
  return now

end Clock

namespace Console

/-- A write that faults writes nothing. -/
def write (text : String) : Act Console Unit := do
  Act.update fun c => { c with writes := c.writes + 1 }
  if ← Act.look fun c => c.broken.contains c.writes then Act.fail .diskFull
  Act.emit (.print text)

def isSkipped (c : Char) : Bool := c == '\x00' || c == '\r'

/-- The stamp in front of a line. It is still due if it could not be written whole. -/
def beginLine (now : ZonedTime) : Act Console Unit := do
  if ← Act.look (·.awaiting) then
    write (← Act.lift now.stamp)
    write ":"
    Act.update fun c => { c with awaiting := false }

def put (now : ZonedTime) (c : Char) : Act Console Unit := do
  unless isSkipped c do
    beginLine now
    write (String.singleton c)
    if c = '\n' then Act.update fun c => { c with awaiting := true }

def template : Message := { kind := .printf }

/-- The elements printed of a message: as many as the usual buffer has. -/
def elements : Nat := 28

def display (now : ZonedTime) (m : Message) : Act Console Unit := do
  Act.each (fun i => do
    let b ← Act.lift (m.bufferElement (Int.ofNat i))
    put now (Char.ofNat b.toNat)) (List.range elements)
  Act.emit .flush

end Console
end MoteLink
