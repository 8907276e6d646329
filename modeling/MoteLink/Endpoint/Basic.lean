import MoteLink.Text.Padded

/-! Where packets come from: a serial port, a network host that speaks the same framing, or a
forwarder that sends whole packets. -/

namespace MoteLink

inductive Endpoint where
  | serial (device : String) (baud : Int)
  | network (host : String) (port : Int)
  | forwarder (host : String) (port : Int)
  deriving DecidableEq, Repr

namespace Endpoint

def label : Endpoint → String
  | .serial .. => "SerialSource"
  | .network .. => "NetworkSource"
  | .forwarder .. => "SFSource"

def describe : Endpoint → String
  | .serial device baud => "serial@" ++ device ++ ":" ++ Text.number baud
  | .network host port => "network@" ++ host ++ ":" ++ Text.number port
  | .forwarder host port => "sf@" ++ host ++ ":" ++ Text.number port

end Endpoint
end MoteLink
