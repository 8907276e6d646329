import MoteLink.Console
import MoteLink.Hub.Basic
import MoteLink.Link.Forwarder
import MoteLink.Reader.Basic

/-! The whole way from a link to the console: a reader whose one listener is a hub, whose one
subscriber prints the text of messages. -/

namespace MoteLink

structure Desk where
  hub : Hub Unit := {}
  console : Console := {}
  clock : Clock
  deriving DecidableEq, Repr

namespace Desk

/-- The clock is read when a message comes, whether it prints or not. -/
def receive (d : Delivery Unit) : Act Desk Unit := do
  let now ← Act.within (·.clock) (fun clock s => { s with clock }) Clock.read
  Act.within (·.console) (fun console s => { s with console }) (Console.display now d.message)

def hear (packet : Bytes) : Act Desk Unit := do
  Act.each receive (← Act.look (·.hub.deliveries packet))

end Desk

abbrev Pipeline := Reader Link Unit Desk

namespace Pipeline

def hear : Hearing Link Unit Desk := fun _ packet =>
  Act.within (·.audience) (fun audience r => { r with audience }) (Desk.hear packet)

def ofLink (link : Link) (revive : Bool) (clock : Clock) : Pipeline :=
  { source := link, revive, audience := { clock } }

/-- The hub listens, and starts the reader; then the console subscribes to printed text. -/
def assemble : Act Pipeline Unit := do
  Reader.add ()
  Hub.attach (← Act.look Reader.started)
  Act.update fun r =>
    { r with audience.hub := r.audience.hub.subscribe Console.template () }

/-- Assembles the pipeline and waits until its reader has ended. -/
def play : Act Pipeline Unit := do
  assemble
  Reader.run hear

end Pipeline
end MoteLink
