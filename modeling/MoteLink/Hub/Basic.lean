import MoteLink.Act
import MoteLink.Packet.Basic

/-! The hub hands each packet, as a message, to those who subscribed to its type. `ι` tells
subscribers apart; a subscriber gets messages of the kind it subscribed with. -/

namespace MoteLink

structure Subscription (ι : Type) where
  template : Message
  subscriber : ι
  deriving DecidableEq, Repr

structure Delivery (ι : Type) where
  subscriber : ι
  destination : Nat
  message : Message
  deriving DecidableEq, Repr

/-- The subscriptions by message type, each type at most once. -/
structure Hub (ι : Type) where
  subscriptions : List (Int × List (Subscription ι)) := []
  deriving DecidableEq, Repr

namespace Hub
variable {ι : Type}

def find (type : Int) : List (Int × List (Subscription ι)) → List (Subscription ι)
  | [] => []
  | (t, entries) :: rest => if t = type then entries else find type rest

/-- Changes the entries of a type, which are none before the first change. -/
def change (type : Int) (f : List (Subscription ι) → List (Subscription ι)) :
    List (Int × List (Subscription ι)) → List (Int × List (Subscription ι))
  | [] => [(type, f [])]
  | (t, entries) :: rest =>
    if t = type then (t, f entries) :: rest else (t, entries) :: change type f rest

def subscribe (template : Message) (subscriber : ι) (h : Hub ι) : Hub ι :=
  ⟨change template.kind.type (· ++ [⟨template, subscriber⟩]) h.subscriptions⟩

/-- Ends every subscription of a subscriber to the type of the template. -/
def unsubscribe [DecidableEq ι] (template : Message) (subscriber : ι) (h : Hub ι) : Hub ι :=
  ⟨change template.kind.type (·.filter (·.subscriber ≠ subscriber)) h.subscriptions⟩

/-- What a packet brings to whom. Bytes that are no packet bring nothing. -/
def deliveries (h : Hub ι) (data : Bytes) : List (Delivery ι) :=
  match Packet.parse? data with
  | none => []
  | some p =>
    (find p.type.toNat h.subscriptions).map fun s =>
      { subscriber := s.subscriber
        destination := p.destination
        message := s.template.carrying p.payload (some p.destination) (some p.source)
          (some p.group.toNat) }

/-- A new hub starts the reader that feeds it unless that was started. -/
def attach (started : Bool) : Act σ Unit := do
  unless started do Act.emit .start

def listing (h : Hub ι) : List (Int × List (Subscription ι)) :=
  h.subscriptions.mergeSort fun a b => decide (a.1 ≤ b.1)

theorem find_change (type t : Int) (f : List (Subscription ι) → List (Subscription ι))
    (s : List (Int × List (Subscription ι))) :
    find t (change type f s) = if type = t then f (find type s) else find t s := by
  induction s with
  | nil => rfl
  | cons entry rest ih =>
    obtain ⟨u, entries⟩ := entry
    by_cases hu : u = type
    · subst hu
      by_cases h : u = t <;> simp [change, find, h]
    · by_cases h : u = t
      · subst h
        simp [change, find, hu, Ne.symm hu]
      · simp [change, find, hu, h, ih]

end Hub
end MoteLink
