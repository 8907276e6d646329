import MoteLink.Speed.Known

/-! The registry of serial speeds by platform name. It is empty until its first use, which runs its
setup; a setup that faults leaves what it registered, and is not run again. -/

namespace MoteLink

/-- The speeds registered, a name at most once, in the order of first registration. -/
abbrev Speeds := List (String × Int)

namespace Speeds

def insert (name : String) (baud : Int) : Speeds → Speeds
  | [] => [(name, baud)]
  | (n, b) :: rest => if n = name then (n, baud) :: rest else (n, b) :: insert name baud rest

def find? (name : String) : Speeds → Option Int
  | [] => none
  | (n, b) :: rest => if n = name then some b else find? name rest

theorem find?_insert (name n : String) (baud : Int) (s : Speeds) :
    (insert name baud s).find? n = if name = n then some baud else s.find? n := by
  induction s with
  | nil => rfl
  | cons entry rest ih =>
    obtain ⟨m, b⟩ := entry
    by_cases hm : m = name
    · subst hm
      by_cases h : m = n <;> simp [insert, find?, h]
    · by_cases h : m = n
      · subst h
        simp [insert, find?, hm, Ne.symm hm]
      · simp [insert, find?, hm, h, ih]

end Speeds

inductive SetupStep where
  | insert (name : String) (baud : Int)
  | find (name : String)
  | fails (fault : Fault)
  deriving DecidableEq, Repr

structure Registry where
  setup : List SetupStep
  speeds : Option Speeds := none
  deriving DecidableEq, Repr

namespace Registry

def ofSetup (entries : List (String × Int)) : Registry :=
  { setup := entries.map fun (name, baud) => .insert name baud }

def usual : Registry := ofSetup Speed.known

/-- The answer for names that are not registered. -/
def unknown : Int := -1

def get (r : Registry) (name : String) : Int := (Speeds.find? name (r.speeds.getD [])).getD unknown

def put (r : Registry) (name : String) (baud : Int) : Registry :=
  { r with speeds := some (Speeds.insert name baud (r.speeds.getD [])) }

def perform : SetupStep → Act Registry Unit
  | .insert name baud => Act.update (·.put name baud)
  | .find name => do Act.emit (.setupRead (← Act.look (·.get name)))
  | .fails fault => Act.fail fault

/-- Runs the setup before the first use. The registry counts as used from the moment the setup
starts, so the setup can use it too. -/
def ready : Act Registry Unit := do
  if ← Act.look (·.speeds.isNone) then
    Act.update fun r => { r with speeds := some [] }
    Act.emit .setup
    match ← Act.attempt (Act.each perform (← Act.look (·.setup))) with
    | .ok () => pure ()
    | .error fault =>
      if fault.isInterrupt then Act.fail fault else Act.emit (.notice .platformsFailed)

def insert (name : String) (baud : Int) : Act Registry Unit := do
  ready
  Act.update (·.put name baud)

def find (name : String) : Act Registry Int := do
  ready
  Act.look (·.get name)

/-- The entries by name, in the order of code points. -/
def listing (r : Registry) : Option (List (String × Int)) :=
  r.speeds.map fun s => s.mergeSort fun a b => decide (a.1 ≤ b.1)

end Registry
end MoteLink
