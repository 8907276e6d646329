import MoteLink.Text.Numeral
import MoteLink.Text.Quoted

/-! What can go wrong, by cause, and how each fault is worded. A link fault is one of the
connection; an interrupt is meant for the whole program, and no loop catches it. -/

namespace MoteLink

/-- Faults that come from outside, with a text of their own. -/
inductive Outside where
  | system
  | connection
  | reset
  | timeout
  | device
  | value
  | state
  | key
  | interrupt
  deriving DecidableEq, Repr

inductive SourceFault where
  | invalid (text : String)
  | unknownPlatform (name : String)
  | badPort (text : String)
  | noPort (text : String)
  deriving DecidableEq, Repr

inductive Fault where
  | outside (kind : Outside) (text : String)
  | closed (link : String)
  | unknownVersion (link : String) (answer : Bytes)
  | deviceGone
  | unplugged
  | exhausted
  | notConnected (operation : String)
  | byteRange
  | index (position : Int) (size : Nat)
  | widePosition
  | noPosition
  | wideSize
  | longBuffer
  | noMemory
  | noOperation (holder operation : String)
  | emptyBody
  | source (cause : SourceFault)
  | numeral (cause : Text.NumeralFault)
  | notListening
  | startedTwice
  | joinedEarly
  | joinedWithin
  | dateRange
  | diskFull
  | tableFull
  | unimplemented
  deriving DecidableEq, Repr

def Outside.label : Outside → String
  | .system => "OSError"
  | .connection => "ConnectionError"
  | .reset => "ConnectionResetError"
  | .timeout => "TimeoutError"
  | .device => "SerialException"
  | .value => "ValueError"
  | .state => "RuntimeError"
  | .key => "KeyError"
  | .interrupt => "KeyboardInterrupt"

def Outside.isLink : Outside → Bool
  | .system | .connection | .reset | .timeout | .device => true
  | .value | .state | .key | .interrupt => false

def SourceFault.text : SourceFault → String
  | .invalid text => "Invalid source " ++ text
  | .unknownPlatform name => "Unknown platform " ++ name
  | .badPort text => "Invalid port in source " ++ text
  | .noPort text => "Missing port in source " ++ text

/-- A malformed numeral is quoted, the quoted form cut to 200 characters. -/
def Text.NumeralFault.text : Text.NumeralFault → String
  | .malformed text =>
    "invalid literal for int() with base 10: " ++
      String.ofList ((Text.quoteText text).toList.take 200)
  | .tooLong digits =>
    "Exceeds the limit (4300 digits) for integer string conversion: value has " ++
      Text.number digits ++ " digits; use sys.set_int_max_str_digits() to increase the limit"

namespace Fault

def label : Fault → String
  | .outside kind _ => kind.label
  | .closed _ | .unknownVersion .. => Outside.connection.label
  | .deviceGone => Outside.device.label
  | .unplugged | .diskFull => Outside.system.label
  | .exhausted | .startedTwice | .joinedEarly | .joinedWithin | .tableFull => Outside.state.label
  | .notConnected _ | .noOperation .. => "AttributeError"
  | .byteRange | .numeral _ | .notListening => Outside.value.label
  | .index .. | .noPosition | .emptyBody => "IndexError"
  | .source _ => "SourceError"
  | .widePosition | .wideSize | .longBuffer | .dateRange => "OverflowError"
  | .noMemory => "MemoryError"
  | .unimplemented => "NotImplementedError"

/-- The fault in words, before any quoting. -/
def text : Fault → String
  | .outside _ text => text
  | .closed link => link ++ " closed the connection"
  | .unknownVersion link answer =>
    link ++ " speaks an unknown protocol version " ++ Text.quoteBytes answer
  | .deviceGone => "device disconnected"
  | .unplugged => "unplugged"
  | .exhausted => "script exhausted"
  | .notConnected operation => "'NoneType' object has no attribute '" ++ operation ++ "'"
  | .byteRange => "byte must be in range(0, 256)"
  | .index position size =>
    "index " ++ Text.number position ++ " is out of bounds for axis 0 with size " ++
      Text.number size
  | .widePosition => "Python int too large to convert to C long"
  | .noPosition =>
    "only integers, slices (`:`), ellipsis (`...`), numpy.newaxis (`None`) and integer or " ++
      "boolean arrays are valid indices"
  | .wideSize => "Python int too large to convert to C ssize_t"
  | .longBuffer => "byte string is too large"
  | .noOperation holder operation =>
    "'" ++ holder ++ "' object has no attribute '" ++ operation ++ "'"
  | .emptyBody => "index out of range"
  | .source cause => cause.text
  | .numeral cause => cause.text
  | .notListening => "list.remove(x): x not in list"
  | .startedTwice => "threads can only be started once"
  | .joinedEarly => "cannot join thread before it is started"
  | .joinedWithin => "cannot join current thread"
  | .dateRange => "date value out of range"
  | .diskFull => "disk full"
  | .tableFull => "full"
  | .noMemory | .unimplemented => ""

/-- The text as a message; the text of a missing key is quoted. -/
def message : Fault → String
  | .outside .key text => Text.quoteText text
  | fault => fault.text

/-- Faults that come without a text, not even an empty one. -/
def isBare : Fault → Bool
  | .noMemory | .unimplemented => true
  | _ => false

/-- The kind and the quoted text, as reports of faults other than link faults show them. -/
def display (fault : Fault) : String :=
  if fault.isBare then fault.label ++ "()"
  else fault.label ++ "(" ++ Text.quoteText fault.text ++ ")"

/-- Faults of the connection, after which reconnecting may help. -/
def isLink : Fault → Bool
  | .outside kind _ => kind.isLink
  | .closed _ | .unknownVersion .. | .deviceGone | .unplugged | .diskFull => true
  | _ => false

def isInterrupt : Fault → Bool
  | .outside .interrupt _ => true
  | _ => false

/-- What it is to end with a fault, or without. -/
def ended : Option Fault → Except Fault Unit
  | none => .ok ()
  | some fault => .error fault

end Fault
end MoteLink
