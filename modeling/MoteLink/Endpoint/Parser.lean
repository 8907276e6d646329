import MoteLink.Endpoint.Basic
import MoteLink.Speed.Registry
import MoteLink.Text.Cut

/-! Endpoints from texts: `serial@device:speed`, `network@host:port` and `sf@host:port`. A device
may hold colons, a host not; a speed is a number or the name of a platform. -/

namespace MoteLink.Endpoint
open Text

def usualBaud : Int := 57600
def forwarderPort : Int := 9002

def usual : String := "sf@localhost:9002"

/-- A speed of digits alone is a number, and the registry is not asked for it. -/
def baud (speed : String) : Act Registry Int := do
  if Numeral.isDigits speed then Act.lift ((Numeral.read speed).mapError .numeral)
  else
    let found ← Registry.find speed
    if found = Registry.unknown then Act.fail (.source (.unknownPlatform speed)) else pure found

def port (text : String) (digits : List Char) : Except Fault Int :=
  (Numeral.read (String.ofList digits)).mapError fun _ => .source (.badPort text)

def serialOf (arguments : List Char) : Act Registry Endpoint := do
  match cutLast ':' arguments with
  | none => return .serial (String.ofList arguments) usualBaud
  | some (device, speed) => return .serial (String.ofList device) (← baud (String.ofList speed))

def forwarderOf (text : String) (arguments : List Char) : Except Fault Endpoint :=
  match cutFirst ':' arguments with
  | none => .ok (.forwarder (String.ofList arguments) forwarderPort)
  | some (host, digits) => (port text digits).map (.forwarder (String.ofList host))

def networkOf (text : String) (arguments : List Char) : Except Fault Endpoint :=
  match cutFirst ':' arguments with
  | none => .error (.source (.noPort text))
  | some (host, digits) => (port text digits).map (.network (String.ofList host))

/-- The kind stands before the first `@`, and something must follow. -/
def parse (text : String) : Act Registry Endpoint :=
  match cutFirst '@' text.toList with
  | none | some (_, []) => Act.fail (.source (.invalid text))
  | some (kind, arguments) =>
    if kind = "serial".toList then serialOf arguments
    else if kind = "sf".toList then Act.lift (forwarderOf text arguments)
    else if kind = "network".toList then Act.lift (networkOf text arguments)
    else Act.fail (.source (.invalid text))

/-- The text given, else a text from the environment unless it is empty, else the usual one. -/
def choose (given environment : Option String) : String :=
  match given, environment with
  | some text, _ => text
  | none, some text => if text.isEmpty then usual else text
  | none, none => usual

end MoteLink.Endpoint
