import MoteLink.Frame.Encoding
import MoteLink.Packet.Message

/-! What a program does that can be seen from outside, in order: traffic on links, waits, readings
of the clock, text, and notices for the person who runs it. -/

namespace MoteLink

inductive Notice where
  | dropped (cause : Frame.Drop)
  | foreign (protocol : UInt8)
  | died (source : String) (fault : Fault)
  | platformsFailed
  | usage
  deriving DecidableEq, Repr

def Frame.Drop.text : Frame.Drop → String
  | .tooLong size => "Serial: frame too long, bytes: " ++ Text.number size
  | .brokenEscape => "Serial: delimiter after escape, resyncing"
  | .short content => "Serial: short frame, bytes: " ++ Text.quoteBytes content
  | .badChecksum computed received content =>
    "Serial: invalid CRC! computed: 0x" ++ String.ofList (Text.hex 4 computed.toNat) ++
      ", received: 0x" ++ String.ofList (Text.hex 4 received.toNat) ++
      ", bytes: " ++ Text.quoteBytes content

namespace Notice

/-- Of a link fault the message is shown, of any other the kind too. -/
def text : Notice → String
  | .dropped cause => cause.text
  | .foreign protocol =>
    "Serial: ignoring frame with protocol 0x" ++ String.ofList (Text.hex 2 protocol.toNat)
  | .died source fault =>
    source ++ " died - " ++ if fault.isLink then fault.message else fault.display
  | .platformsFailed =>
    "Failed to initialize baud rates for platforms. Serial communication may not work properly."
  | .usage => "usage: PrintfClient [-comm <source>]"

end Notice

inductive Event where
  | dialPort (device : String) (baud : Int)
  | dialHost (host : String) (port : Int)
  | readPort (size : Nat)
  | readSocket (size : Nat)
  | writePort (data : Bytes)
  | writeSocket (data : Bytes)
  | openSource
  | close
  | sleep (seconds : Nat)
  | start
  | clock
  | heard (listener : String) (packet : Bytes)
  | delivered (listener : String) (destination : Nat) (message : Message)
  | setup
  | setupRead (baud : Int)
  | print (text : String)
  | flush
  | notice (notice : Notice)
  deriving DecidableEq, Repr

abbrev Trace := List Event

namespace Trace

def notices (t : Trace) : List Notice :=
  t.filterMap fun | .notice n => some n | _ => none

def noticeText (t : Trace) : String := String.join (t.notices.map fun n => n.text ++ "\n")

def printed (t : Trace) : String :=
  String.join (t.filterMap fun | .print text => some text | _ => none)

def flushes (t : Trace) : Nat := t.count .flush

/-- What a setup read last, for each time it ran. -/
def setups (t : Trace) : List (Option Int) :=
  t.foldl (fun runs e =>
    match e with
    | .setup => runs ++ [none]
    | .setupRead baud => runs.dropLast ++ [some baud]
    | _ => runs) []

end Trace
end MoteLink
