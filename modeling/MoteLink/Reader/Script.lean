import MoteLink.Reader.Basic
import MoteLink.Reader.Playback
import MoteLink.Scripts

/-! Listeners that follow a script: each logs the packet it hears and then performs its next action,
which may be any step on the reader. An action is used up before it is performed, so listeners that
call each other come to an end. -/

namespace MoteLink

namespace Reader

inductive Step where
  | add (name : String)
  | remove (name : String)
  | deliver (packet : Bytes)
  | start
  | join
  | run
  | session
  | requestStop
  deriving DecidableEq, Repr

abbrev Scripted (σ : Type) := Reader σ String (Scripts Step)

variable {σ : Type} [PacketFeed σ]

def perform (hear : Hearing σ String (Scripts Step)) : Step → Act (Scripted σ) Unit
  | .add name => add name
  | .remove name => remove name
  | .deliver packet => Reader.deliver hear packet
  | .start => Reader.start hear
  | .join => Reader.join
  | .run => Reader.run hear
  | .session => Reader.session hear
  | .requestStop => Reader.requestStop

/-- Listeners as scripted, who may call each other `depth` deep. -/
def hear : Nat → Hearing σ String (Scripts Step)
  | depth, name, packet => do
    Act.emit (.heard name packet)
    match depth with
    | 0 => pure ()
    | depth + 1 =>
      let action ← Act.look fun r => (r.audience.next name).1
      Act.update fun r => { r with audience := (r.audience.next name).2 }
      match action with
      | .rest => pure ()
      | .fails fault => Act.fail fault
      | .step step => perform (hear depth) step

/-- A step from outside, with as much depth as there are actions left. -/
def performScripted (step : Step) : Act (Scripted σ) Unit := do
  let depth ← Act.look (·.audience.left)
  perform (hear depth) step

end Reader
end MoteLink
