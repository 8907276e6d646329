import Mathlib.Tactic.SplitIfs
import MoteLink.Endpoint.Parser
import MoteLink.Proofs.Speed.Ready

/-! What can come out of reading an endpoint. All faults but one sort name the text as the culprit:
a speed made of digits that together are no numeral raises the fault of the numeral itself. Main
statement: `parse_outcome`. -/

namespace MoteLink.Endpoint
open Text

/-- A serial endpoint whose speed is of digits alone, and still no numeral. -/
def BadSpeed (text : String) : Prop :=
  ∃ device speed : List Char, text.toList = "serial@".toList ++ device ++ ':' :: speed ∧
    ':' ∉ speed ∧ Numeral.isDigits (String.ofList speed) = true ∧
    ∃ cause, Numeral.read (String.ofList speed) = .error cause

theorem parse_of_cut {text : String} {kind arguments : List Char}
    (h : cutFirst '@' text.toList = some (kind, arguments)) (some : arguments ≠ []) :
    parse text =
      if kind = "serial".toList then serialOf arguments
      else if kind = "sf".toList then Act.lift (forwarderOf text arguments)
      else if kind = "network".toList then Act.lift (networkOf text arguments)
      else Act.fail (.source (.invalid text)) := by
  unfold parse
  rw [h]
  cases arguments with
  | nil => exact absurd rfl some
  | cons c rest => rfl

theorem port_eq_ok {text : String} {digits : List Char} {n : Int} :
    port text digits = .ok n ↔ Numeral.read (String.ofList digits) = .ok n := by
  unfold port
  cases Numeral.read (String.ofList digits) <;> simp [Except.mapError]

theorem parse_of_badSpeed {text : String} (h : BadSpeed text) (r : Registry) :
    ∃ cause, (parse text r).result = .error (.numeral cause) := by
  obtain ⟨device, speed, htext, hcolon, hdigits, cause, hread⟩ := h
  have hcut : cutFirst '@' text.toList = some ("serial".toList, device ++ ':' :: speed) := by
    rw [cutFirst_eq_some, htext]
    exact ⟨by simp, by decide⟩
  have hlast : cutLast ':' (device ++ ':' :: speed) = some (device, speed) :=
    cutLast_eq_some.2 ⟨rfl, hcolon⟩
  rw [parse_of_cut hcut (by simp), if_pos rfl, serialOf, hlast]
  refine ⟨cause, ?_⟩
  simp [baud, hdigits, hread, Except.mapError, Act.lift, Act.run_bind]

/-- Either an endpoint, or a fault that names the text. -/
def Fair (result : Except Fault Endpoint) : Prop :=
  (∃ endpoint, result = .ok endpoint) ∨ ∃ cause, result = .error (.source cause)

theorem fair_lift {result : Except Fault Endpoint} (h : Fair result) (r : Registry) :
    Fair ((Act.lift result : Act Registry Endpoint) r).result := by
  rwa [Act.run_lift]

theorem fair_port (text : String) (digits : List Char) (f : Int → Endpoint) :
    Fair ((port text digits).map f) := by
  unfold port
  cases Numeral.read (String.ofList digits) with
  | ok n => exact .inl ⟨f n, rfl⟩
  | error cause => exact .inr ⟨.badPort text, rfl⟩

theorem fair_forwarderOf (text : String) (arguments : List Char) :
    Fair (forwarderOf text arguments) := by
  unfold forwarderOf
  cases cutFirst ':' arguments with
  | none => exact .inl ⟨_, rfl⟩
  | some parts => exact fair_port text _ _

theorem fair_networkOf (text : String) (arguments : List Char) :
    Fair (networkOf text arguments) := by
  unfold networkOf
  cases cutFirst ':' arguments with
  | none => exact .inr ⟨.noPort text, rfl⟩
  | some parts => exact fair_port text _ _

theorem fair_serialOf {arguments : List Char} {r : Registry} (mild : r.Mild)
    (h : ∀ device speed, arguments = device ++ ':' :: speed → ':' ∉ speed →
      Numeral.isDigits (String.ofList speed) = true →
      ∃ n, Numeral.read (String.ofList speed) = .ok n) :
    Fair (serialOf arguments r).result := by
  unfold serialOf
  cases hcut : cutLast ':' arguments with
  | none => exact .inl ⟨_, rfl⟩
  | some parts =>
    obtain ⟨device, speed⟩ := parts
    obtain ⟨harguments, hcolon⟩ := cutLast_eq_some.1 hcut
    by_cases hdigits : Numeral.isDigits (String.ofList speed) = true
    · obtain ⟨n, hread⟩ := h device speed harguments hcolon hdigits
      refine .inl ⟨.serial (String.ofList device) n, ?_⟩
      simp [baud, hdigits, hread, Except.mapError, Act.lift, Act.run_bind, Outcome.after]
    · obtain ⟨found, hfound⟩ := mild.find (String.ofList speed)
      generalize ho : Registry.find (String.ofList speed) r = o at hfound
      obtain ⟨result, s, t⟩ := o
      obtain rfl : result = .ok found := hfound
      by_cases hunknown : found = Registry.unknown
      · refine .inr ⟨.unknownPlatform (String.ofList speed), ?_⟩
        simp [baud, hdigits, Act.run_bind, ho, hunknown, Outcome.after]
      · refine .inl ⟨.serial (String.ofList device) found, ?_⟩
        simp [baud, hdigits, Act.run_bind, ho, hunknown, Outcome.after]

/-- Reading an endpoint gives one, or faults for its text, unless the speed is bad; then the fault
is that of a numeral, whatever the registry. -/
theorem parse_outcome (text : String) {r : Registry} (mild : r.Mild) :
    (BadSpeed text → ∃ cause, (parse text r).result = .error (.numeral cause)) ∧
      (¬ BadSpeed text → (∃ endpoint, (parse text r).result = .ok endpoint) ∨
        ∃ cause, (parse text r).result = .error (.source cause)) := by
  refine ⟨fun h => parse_of_badSpeed h r, fun h => ?_⟩
  cases hcut : cutFirst '@' text.toList with
  | none => exact .inr ⟨.invalid text, by rw [parse, hcut]; rfl⟩
  | some parts =>
    obtain ⟨kind, arguments⟩ := parts
    by_cases hnil : arguments = []
    · subst hnil
      exact .inr ⟨.invalid text, by rw [parse, hcut]; rfl⟩
    · rw [parse_of_cut hcut hnil]
      split_ifs with hserial hforwarder hnetwork
      · apply fair_serialOf mild
        intro device speed harguments hcolon hdigits
        cases hread : Numeral.read (String.ofList speed) with
        | ok n => exact ⟨n, rfl⟩
        | error cause =>
          refine absurd ⟨device, speed, ?_, hcolon, hdigits, cause, hread⟩ h
          rw [(cutFirst_eq_some.1 hcut).1, hserial, harguments]
          simp
      · exact fair_lift (fair_forwarderOf text arguments) r
      · exact fair_lift (fair_networkOf text arguments) r
      · exact .inr ⟨.invalid text, rfl⟩

theorem parse_outcome_failing_setup :
    let r : Registry := { setup := [.insert "bench" 9600, .fails (.outside .state "full")] }
    r.Mild ∧ BadSpeed "serial@a:b@:4²" ∧
      ∃ cause, (parse "serial@a:b@:4²" r).result = .error (.numeral cause) := by
  intro r
  have hmild : r.Mild := by
    rintro fault (_ | ⟨_, _ | ⟨_, hnone⟩⟩)
    · rfl
    · exact absurd hnone List.not_mem_nil
  have hbad : BadSpeed "serial@a:b@:4²" :=
    ⟨"a:b@".toList, "4²".toList, by decide, by decide, by decide +kernel, .malformed "4²",
      rfl⟩
  exact ⟨hmild, hbad, (parse_outcome _ hmild).1 hbad⟩

/-- Two tests of digits that disagree: what looks like a number is none, and the fault that comes
out does not name the text. -/
theorem superscript_speed :
    Registry.usual.Mild ∧
      (parse "serial@tty:²" .usual).result = .error (.numeral (.malformed "²")) ∧
      ¬ Fair (parse "serial@tty:²" .usual).result := by
  have hresult : (parse "serial@tty:²" .usual).result = .error (.numeral (.malformed "²")) :=
    rfl
  refine ⟨Registry.mild_ofSetup _, hresult, ?_⟩
  rw [hresult]
  rintro (⟨endpoint, h⟩ | ⟨cause, h⟩)
  · exact nomatch h
  · exact nomatch h

end MoteLink.Endpoint
