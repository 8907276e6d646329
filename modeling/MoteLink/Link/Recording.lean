import MoteLink.Fault

/-! Recordings of links: what each attempt to connect met with, and what came of each read and of
each write. -/

namespace MoteLink

inductive Answer where
  | chunk (data : Bytes)
  | fails (fault : Fault)
  /-- A stop is requested while the read waits, and then the read fails. -/
  | stops (fault : Fault)
  deriving DecidableEq, Repr

/-- A write on a connection has a place of its own among `sends`, with the fault it raises if it
fails. Those beyond the end go through. -/
inductive Dial where
  | refused (fault : Fault)
  | accepted (answers : List Answer) (sends : List (Option Fault) := [])
  deriving DecidableEq, Repr

abbrev Recording := List Dial

namespace Answer

def waiting : Answer → Nat
  | chunk data => data.length
  | _ => 0

/-- A byte still on the line weighs more than one that was read and waits to be used. -/
def weight : Answer → Nat
  | chunk data => 2 * data.length + 1
  | _ => 1

def weights : List Answer → Nat
  | [] => 0
  | a :: rest => a.weight + weights rest

end Answer

namespace Dial

def weight : Dial → Nat
  | refused _ => 1
  | accepted answers _ => Answer.weights answers + 1

def weights : Recording → Nat
  | [] => 0
  | d :: rest => d.weight + weights rest

end Dial
end MoteLink
