import MoteLink.Endpoint.Parser
import MoteLink.Pipeline

/-! The command: print what motes print, from the source given behind `-comm` or the usual one. -/

namespace MoteLink

structure World where
  environment : Option String := none
  recording : Recording := []
  clock : Clock

namespace Command

/-- The source given, if the arguments are a flag and a source. Any other number of arguments
gives none; two that are wrong are refused. -/
def given : List String → Option (Option String)
  | [flag, source] => if flag = "-comm" then some (some source) else none
  | _ => some none

/-- The exit code, or the fault that ended the reader. -/
def run (world : World) (arguments : List String) : Act Registry Nat := do
  match given arguments with
  | none =>
    Act.emit (.notice .usage)
    return 1
  | some source =>
    let endpoint ← Endpoint.parse (Endpoint.choose source world.environment)
    Act.emit (.print (endpoint.describe ++ "\n"))
    let link : Link := { endpoint, recording := world.recording }
    Act.aside (Pipeline.ofLink link false world.clock) do
      Pipeline.play
      match ← Act.look (·.kept) with
      | some fault => Act.fail fault
      | none => return 0

/-- What is left when the pipeline ends: the fault kept, and whether the console awaits a line. -/
def pipe (world : World) (source : Option String) (revive : Bool) :
    Act Registry (Option Fault × Bool) := do
  let endpoint ← Endpoint.parse (Endpoint.choose source world.environment)
  let link : Link := { endpoint, recording := world.recording }
  Act.aside (Pipeline.ofLink link revive world.clock) do
    Pipeline.play
    Act.look fun r => (r.kept, r.audience.console.awaiting)

end Command
end MoteLink
