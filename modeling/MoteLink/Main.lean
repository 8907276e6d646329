import MoteLink.Command
import Std.Time.DateTime.Timestamp

/-! The command line. The bytes of the link are read from the standard input, in the pieces in which
they come, and stand for one connection to the source. -/

namespace MoteLink.CommandLine

/-- The days from the beginning of the year 1 to that of 1970. -/
def daysToEpoch : Nat := Calendar.daysBefore 1970

def timeOfEpoch (microseconds : Nat) : ZonedTime :=
  { shown := .ofInstant (daysToEpoch * Clocktime.microsecondsPerDay + microseconds), offset := 0 }

def now : IO ZonedTime := do
  let time ← Std.Time.Timestamp.now
  return timeOfEpoch (time.toNanosecondsSinceUnixEpoch.val / 1000).toNat

partial def chunks (input : IO.FS.Stream) : IO (List Answer) := do
  let data ← input.read 4096
  if data.isEmpty then return []
  return .chunk data.toList :: (← chunks input)

end MoteLink.CommandLine

open MoteLink in
def main (arguments : List String) : IO UInt32 := do
  let answers ← CommandLine.chunks (← IO.getStdin)
  let world : World :=
    { environment := ← IO.getEnv "MOTECOM"
      recording := [.accepted answers]
      clock := { now := ← CommandLine.now } }
  let outcome := Command.run world arguments .usual
  IO.print outcome.trace.printed
  IO.eprint outcome.trace.noticeText
  match outcome.result with
  | .ok code => return UInt32.ofNat code
  | .error fault =>
    IO.eprintln (fault.label ++ ": " ++ fault.message)
    return 1
