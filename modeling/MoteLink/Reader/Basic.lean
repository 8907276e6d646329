import MoteLink.Reader.Feed

/-! Readers: a source read packet after packet, each handed to the listeners. A link fault can be
answered by opening the source again after a pause; any other fault ends the reader and is kept, and
so is a link fault that is not answered. A stop ends it without a fault.

How a listener takes a packet is a parameter, and it may act on the reader. The loops count down
what the source has left, which no listener can raise. -/

namespace MoteLink

inductive Worker where
  | ready
  | running
  | done
  deriving DecidableEq, Repr

/-- `σ` is the source, `ι` tells listeners apart, `ν` is what the listeners keep. -/
structure Reader (σ ι ν : Type) where
  source : σ
  revive : Bool := false
  listeners : List ι := []
  kept : Option Fault := none
  worker : Worker := .ready
  audience : ν

abbrev Hearing (σ ι ν : Type) := ι → Bytes → Act (Reader σ ι ν) Unit

namespace Reader
variable {σ ι ν : Type} [PacketFeed σ]

/-- The seconds between a link fault and the next try. -/
def pause : Nat := 2

def describe (r : Reader σ ι ν) : String := PacketFeed.describe r.source

def threadName (r : Reader σ ι ν) : String := "phoenix " ++ r.describe

def stopping (r : Reader σ ι ν) : Bool := PacketFeed.stopping r.source

def started (r : Reader σ ι ν) : Bool := r.worker ≠ .ready

def onSource (x : Act σ α) : Act (Reader σ ι ν) α :=
  Act.within (·.source) (fun source r => { r with source }) x

def remaining (r : Reader σ ι ν) : Nat := PacketFeed.remaining r.source

def add (listener : ι) : Act (Reader σ ι ν) Unit :=
  Act.update fun r => { r with listeners := r.listeners ++ [listener] }

/-- Takes out the earliest registration. -/
def remove [BEq ι] (listener : ι) : Act (Reader σ ι ν) Unit := do
  if ← Act.look fun r => r.listeners.contains listener then
    Act.update fun r => { r with listeners := r.listeners.erase listener }
  else Act.fail .notListening

def requestStop : Act (Reader σ ι ν) Unit := onSource PacketFeed.requestStop

/-- Those who are listeners when the packet comes get it, in order, up to the first who faults. -/
def deliver (hear : Hearing σ ι ν) (packet : Bytes) : Act (Reader σ ι ν) Unit := do
  let listeners ← Act.look (·.listeners)
  Act.each (hear · packet) listeners

/-- Reads and delivers until a stop, at most `n` times. -/
def pump (hear : Hearing σ ι ν) : Nat → Act (Reader σ ι ν) Unit
  | 0 => pure ()
  | n + 1 => do
    if ← Act.look stopping then return ()
    deliver hear (← onSource PacketFeed.read)
    pump hear n

/-- Opens the source and reads until it faults or a stop is requested, and closes it in any case
once it was opened. -/
def session (hear : Hearing σ ι ν) : Act (Reader σ ι ν) Unit := do
  onSource PacketFeed.connect
  let left ← Act.look remaining
  Act.ensuring (pump hear (left + 1)) (onSource PacketFeed.close)

def keep (fault : Fault) : Act (Reader σ ι ν) Unit :=
  Act.update fun r => { r with kept := some fault }

def report (fault : Fault) : Act (Reader σ ι ν) Unit := do
  Act.emit (.notice (.died (← Act.look describe) fault))

/-- Whether to go on after a fault of `session`. -/
def recover (fault : Fault) : Act (Reader σ ι ν) Bool := do
  if fault.isInterrupt then Act.fail fault
  else if fault.isLink then
    if ← Act.look stopping then return false
    report fault
    if ← Act.look (·.revive) then
      Act.emit (.sleep pause)
      return true
    keep fault
    return false
  else
    report fault
    keep fault
    return false

/-- Reads session after session, at most `n` of them. -/
def rounds (hear : Hearing σ ι ν) : Nat → Act (Reader σ ι ν) Unit
  | 0 => pure ()
  | n + 1 => do
    if ← Act.look stopping then return ()
    match ← Act.attempt (session hear) with
    | .ok () => rounds hear n
    | .error fault => if ← recover fault then rounds hear n

def run (hear : Hearing σ ι ν) : Act (Reader σ ι ν) Unit := do
  rounds hear ((← Act.look remaining) + 1)

/-- Runs on the reader's thread until its end. An interrupt ends the thread and nothing else. -/
def start (hear : Hearing σ ι ν) : Act (Reader σ ι ν) Unit := do
  match ← Act.look (·.worker) with
  | .ready =>
    Act.update fun r => { r with worker := .running }
    let _ ← Act.attempt (run hear)
    Act.update fun r => { r with worker := .done }
  | _ => Act.fail .startedTwice

/-- Waits for the thread, which must have been started and must not be the one that waits. -/
def join : Act (Reader σ ι ν) Unit := do
  match ← Act.look (·.worker) with
  | .ready => Act.fail .joinedEarly
  | .running => Act.fail .joinedWithin
  | .done => pure ()

end Reader
end MoteLink
