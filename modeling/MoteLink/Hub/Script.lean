import MoteLink.Hub.Basic
import MoteLink.Scripts

/-! Subscribers that follow a script: each logs the message it gets and then performs its next
action, which may be any step on the hub. An action is used up before it is performed. -/

namespace MoteLink.Hub

inductive Step where
  | subscribe (kind : Kind) (name : String)
  | unsubscribe (kind : Kind) (name : String)
  | packet (data : Bytes)
  deriving DecidableEq, Repr

structure Scripted where
  hub : Hub String := {}
  scripts : Scripts Step := []
  deriving DecidableEq, Repr

/-- A step, given what a delivery brings about. Subscribing, or ending that, takes a message of
the kind; if none can be made, the hub stays as it is. -/
def perform (take : Delivery String → Act Scripted Unit) : Step → Act Scripted Unit
  | .subscribe kind name => do
    let template ← Act.lift (Message.made { kind })
    Act.update fun s => { s with hub := s.hub.subscribe template name }
  | .unsubscribe kind name => do
    let template ← Act.lift (Message.made { kind })
    Act.update fun s => { s with hub := s.hub.unsubscribe template name }
  | .packet data => do Act.each take (← Act.look (·.hub.deliveries data))

/-- A delivery to a subscriber as scripted, where deliveries may be nested `depth` deep. -/
def take : Nat → Delivery String → Act Scripted Unit
  | depth, d => do
    Act.emit (.delivered d.subscriber d.destination d.message)
    match depth with
    | 0 => pure ()
    | depth + 1 =>
      let action ← Act.look fun s => (s.scripts.next d.subscriber).1
      Act.update fun s => { s with scripts := (s.scripts.next d.subscriber).2 }
      match action with
      | .rest => pure ()
      | .fails fault => Act.fail fault
      | .step step => perform (take depth) step

/-- A step from outside, with as much depth as there are actions left. -/
def performScripted (step : Step) : Act Scripted Unit := do
  let depth ← Act.look (·.scripts.left)
  perform (take depth) step

end MoteLink.Hub
