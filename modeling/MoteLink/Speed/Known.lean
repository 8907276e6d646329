import MoteLink.Act

/-! The mote platforms whose serial speed is known, and a record of registrations that can fill
up. -/

namespace MoteLink

namespace Speed

def known : List (String × Int) :=
  [("mica", 19200), ("mica2", 57600), ("mica2dot", 19200), ("micaz", 57600), ("iris", 57600),
   ("ucmini", 57600), ("mulle", 57600), ("eyesIFX", 57600), ("telos", 115200), ("telosb", 115200),
   ("tmote", 115200), ("tinynode", 115200), ("intelmote2", 115200), ("shimmer", 115200),
   ("shimmer2", 115200), ("shimmer2r", 115200), ("span", 115200), ("epic", 115200), ("z1", 115200)]

/-- Registers every known platform in turn, up to the first fault. -/
def recordAll (record : String → Int → Act σ Unit) : Act σ Unit :=
  Act.each (fun (name, baud) => record name baud) known

end Speed

/-- Keeps what is registered, and faults on the registration that fills it. -/
structure Recorder where
  limit : Option Nat := none
  entries : List (String × Int) := []

namespace Recorder

def record (name : String) (baud : Int) : Act Recorder Unit := do
  Act.update fun r => { r with entries := r.entries ++ [(name, baud)] }
  if ← Act.look fun r => r.limit == some r.entries.length then Act.fail .tableFull

end Recorder
end MoteLink
