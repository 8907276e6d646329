import MoteLink.Frame.Encoding
import MoteLink.Fault

/-! The receiver of a byte stream: it hunts for a delimiter, collects and unstuffs what follows, and
at the next delimiter hands out the body or says why the content is dropped. -/

namespace MoteLink

inductive Phase where
  | hunting
  | inside
  | escaped
  deriving DecidableEq, Repr

structure Receiver where
  phase : Phase := .hunting
  content : Bytes := []
  deriving DecidableEq, Repr

inductive Signal where
  | quiet
  | body (bytes : Bytes)
  | dropped (cause : Frame.Drop)
  deriving DecidableEq, Repr

def Signal.body? : Signal → Option Bytes
  | .body bytes => some bytes
  | _ => none

def Signal.drop? : Signal → Option Frame.Drop
  | .dropped cause => some cause
  | _ => none

namespace Receiver
open MoteLink.Frame

def finish (r : Receiver) : Receiver × Signal :=
  ({ r with content := [] },
    match judge r.content with
    | .ok body => .body body
    | .error cause => .dropped cause)

/-- Collects a byte; content beyond the capacity is thrown away and the hunt begins again. -/
def collect (r : Receiver) (b : UInt8) : Receiver × Signal :=
  let content := r.content ++ [b]
  if capacity < content.length then ({}, .dropped (.tooLong content.length))
  else ({ phase := .inside, content }, .quiet)

def step (r : Receiver) (b : UInt8) : Receiver × Signal :=
  match r.phase with
  | .hunting => (if b = delimiter then { phase := .inside } else r, .quiet)
  | .inside =>
    if b = delimiter then if r.content.isEmpty then (r, .quiet) else r.finish
    else if b = escapeMark then ({ r with phase := .escaped }, .quiet)
    else r.collect b
  | .escaped =>
    if b = delimiter then ({ phase := .inside }, .dropped .brokenEscape)
    else r.collect (toggle b)

def run (r : Receiver) : Bytes → Receiver × List Signal
  | [] => (r, [])
  | b :: rest =>
    let (r', signal) := r.step b
    let (last, signals) := r'.run rest
    (last, signal :: signals)

/-- Offers any integer. One that is no byte is passed over in the hunt and refused elsewhere. -/
def offer (r : Receiver) (n : Int) : Except Fault (Receiver × Signal) :=
  if 0 ≤ n ∧ n < 256 then .ok (r.step (UInt8.ofNat n.toNat))
  else if r.phase = .hunting then .ok (r, .quiet)
  else .error .byteRange

def offerAll (r : Receiver) : List Int → Receiver × List Signal × Option Fault
  | [] => (r, [], none)
  | n :: rest =>
    match r.offer n with
    | .error fault => (r, [], some fault)
    | .ok (r', signal) =>
      let (last, signals, fault) := r'.offerAll rest
      (last, signal :: signals, fault)

/-- Where reading stops at a body: the receiver then, the body, the bytes left, and what was
dropped on the way. -/
structure Scan where
  receiver : Receiver
  body : Option Bytes
  rest : Bytes
  drops : List Drop

/-- Reads up to the first byte that completes a body. -/
def scan (r : Receiver) : Bytes → Scan
  | [] => ⟨r, none, [], []⟩
  | b :: rest =>
    match r.step b with
    | (r', .body body) => ⟨r', some body, rest, []⟩
    | (r', .quiet) => r'.scan rest
    | (r', .dropped cause) =>
      let s := r'.scan rest
      { s with drops := cause :: s.drops }

end Receiver
end MoteLink
