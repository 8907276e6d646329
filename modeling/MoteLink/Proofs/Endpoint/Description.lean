import Mathlib.Tactic.SplitIfs
import MoteLink.Proofs.Endpoint.Faults
import MoteLink.Proofs.Speed.History
import MoteLink.Proofs.Text.Numerals
import MoteLink.Proofs.Trace

/-! Endpoints described and read again. A description is a normal form of the texts that name the
endpoint: no registry is asked for its speed, and it describes itself. Main statement:
`describe_of_parse`. -/

namespace MoteLink.Registry
open Text

/-- A speed that is found is not negative and can be written. -/
def Regular (r : Registry) : Prop :=
  ∀ name baud, (find name r).result = .ok baud → baud = unknown ∨ 0 ≤ baud ∧ Writable baud

/-- A registry is regular by the speeds that it has and, before its first use, by those of its
setup. -/
theorem regular_of_rates {r : Registry}
    (hspeeds : ∀ name, r.get name = unknown ∨ 0 ≤ r.get name ∧ Writable (r.get name))
    (hsetup : ∀ name baud, .insert name baud ∈ r.setup → 0 ≤ baud ∧ Writable baud) :
    Regular r := by
  intro name baud hfound
  obtain ⟨-, hready, hlook⟩ := Act.ok_of_bind hfound
  obtain rfl : (ready r).state.get name = baud := Except.ok.inj hlook
  cases hr : r.speeds with
  | some speeds =>
    rw [ready_of_used (by rw [hr]; rfl)]
    exact hspeeds name
  | none =>
    have hnew : r = { setup := r.setup } := by
      rw [← hr]
    obtain ⟨r', hrun, hfollows⟩ := ready_new r.setup
    rw [hnew, hrun]
    show r'.get name = unknown ∨ 0 ≤ r'.get name ∧ Writable (r'.get name)
    rw [hfollows.get]
    exact (latest_mem _ name).imp_right fun h => hsetup name _ (mem_of_mem_completed h)

end MoteLink.Registry

namespace MoteLink.Endpoint
open Text

/-- The speed or the port. -/
def figure : Endpoint → Int
  | .serial _ baud => baud
  | .network _ port | .forwarder _ port => port

/-- The description, if the number in it can be written. -/
def describe? (e : Endpoint) : Option String :=
  if Writable e.figure then some e.describe else none

/-- What a text can name. -/
def Nameable : Endpoint → Prop
  | .serial _ baud => 0 ≤ baud ∧ Writable baud
  | .network host port | .forwarder host port => ':' ∉ host.toList ∧ Writable port

theorem Nameable.writable {e : Endpoint} (h : e.Nameable) : Writable e.figure := by
  cases e <;> exact h.2

theorem port_number {text : String} {n : Int} (h : Writable n) :
    port text (number n).toList = .ok n :=
  port_eq_ok.2 ((congrArg Numeral.read String.ofList_toList).trans (Numeral.read_number h))

theorem parse_of_kind {text : String} {kind arguments : List Char}
    (h : text.toList = kind ++ '@' :: arguments) (hkind : '@' ∉ kind) (hne : arguments ≠ []) :
    parse text =
      if kind = "serial".toList then serialOf arguments
      else if kind = "sf".toList then Act.lift (forwarderOf text arguments)
      else if kind = "network".toList then Act.lift (networkOf text arguments)
      else Act.fail (.source (.invalid text)) :=
  parse_of_cut (cutFirst_eq_some.2 ⟨h, hkind⟩) hne

/-- The last colon of a serial endpoint's description stands before its speed, the first one of any
other's before its port. -/
theorem parse_describe {e : Endpoint} (h : e.Nameable) (r : Registry) :
    parse e.describe r = ⟨.ok e, r, []⟩ := by
  cases e with
  | serial device baud =>
    obtain ⟨hnonneg, hwritable⟩ := h
    have htext : (describe (.serial device baud)).toList =
        "serial".toList ++ '@' :: (device.toList ++ ':' :: (number baud).toList) := by
      simp [describe]
    have hcut : cutLast ':' (device.toList ++ ':' :: (number baud).toList) =
        some (device.toList, (number baud).toList) :=
      cutLast_eq_some.2 ⟨rfl, Numeral.colon_not_mem_number baud⟩
    rw [parse_of_kind htext (by decide) (by simp), if_pos rfl, serialOf, hcut]
    have hbaud : Endpoint.baud (number baud) r = ⟨.ok baud, r, []⟩ := by
      rw [Endpoint.baud, if_pos (Numeral.isDigits_number hnonneg), Numeral.read_number hwritable]
      rfl
    simp only [String.ofList_toList]
    rw [Act.bind_ok hbaud]
    rfl
  | network host port =>
    obtain ⟨hhost, hwritable⟩ := h
    have htext : (describe (.network host port)).toList =
        "network".toList ++ '@' :: (host.toList ++ ':' :: (number port).toList) := by
      simp [describe]
    have hcut : cutFirst ':' (host.toList ++ ':' :: (number port).toList) =
        some (host.toList, (number port).toList) := cutFirst_eq_some.2 ⟨rfl, hhost⟩
    rw [parse_of_kind htext (by decide) (by simp), if_neg (by decide), if_neg (by decide),
      if_pos rfl, networkOf, hcut]
    simp only [port_number hwritable, String.ofList_toList]
    rfl
  | forwarder host port =>
    obtain ⟨hhost, hwritable⟩ := h
    have htext : (describe (.forwarder host port)).toList =
        "sf".toList ++ '@' :: (host.toList ++ ':' :: (number port).toList) := by
      simp [describe]
    have hcut : cutFirst ':' (host.toList ++ ':' :: (number port).toList) =
        some (host.toList, (number port).toList) := cutFirst_eq_some.2 ⟨rfl, hhost⟩
    rw [parse_of_kind htext (by decide) (by simp), if_neg (by decide), if_pos rfl, forwarderOf,
      hcut]
    simp only [port_number hwritable, String.ofList_toList]
    rfl

theorem nameable_baud {speed : String} {r : Registry} (regular : r.Regular) {n : Int}
    (h : (baud speed r).result = .ok n) : 0 ≤ n ∧ Writable n := by
  unfold baud at h
  split at h
  · rename_i hdigits
    have hread : Numeral.read speed = .ok n := by
      cases hread : Numeral.read speed with
      | error cause =>
        rw [hread] at h
        exact nomatch h
      | ok m =>
        rw [hread] at h
        exact congrArg Except.ok (Except.ok.inj h)
    exact ⟨Numeral.nonneg_of_read hdigits hread, Numeral.writable_of_read hread⟩
  · obtain ⟨found, hfound, hkept⟩ := Act.ok_of_bind h
    split at hkept
    · exact nomatch hkept
    · rename_i hknown
      obtain rfl : found = n := Except.ok.inj hkept
      exact (regular _ _ hfound).resolve_left hknown

theorem nameable_serialOf {arguments : List Char} {r : Registry} (regular : r.Regular)
    {e : Endpoint} (h : (serialOf arguments r).result = .ok e) : e.Nameable := by
  unfold serialOf at h
  cases hcut : cutLast ':' arguments with
  | none =>
    rw [hcut] at h
    obtain rfl := Except.ok.inj h
    exact ⟨by decide, by decide⟩
  | some parts =>
    rw [hcut] at h
    obtain ⟨n, hn, he⟩ := Act.ok_of_bind h
    obtain rfl := Except.ok.inj he
    exact nameable_baud regular hn

theorem nameable_port {text : String} {digits host : List Char} {f : String → Int → Endpoint}
    {e : Endpoint} (h : (port text digits).map (f (String.ofList host)) = .ok e) :
    ∃ n, e = f (String.ofList host) n ∧ Writable n := by
  obtain ⟨n, hn, rfl⟩ := exists_of_map_ok h
  exact ⟨n, rfl, Numeral.writable_of_read (port_eq_ok.1 hn)⟩

theorem nameable_forwarderOf {text : String} {arguments : List Char} {e : Endpoint}
    (h : forwarderOf text arguments = .ok e) : e.Nameable := by
  unfold forwarderOf at h
  cases hcut : cutFirst ':' arguments with
  | none =>
    rw [hcut] at h
    obtain rfl := Except.ok.inj h
    exact ⟨by simpa using cutFirst_eq_none.1 hcut, by decide⟩
  | some parts =>
    obtain ⟨host, digits⟩ := parts
    rw [hcut] at h
    obtain ⟨n, rfl, hn⟩ := nameable_port h
    exact ⟨by simpa using (cutFirst_eq_some.1 hcut).2, hn⟩

theorem nameable_networkOf {text : String} {arguments : List Char} {e : Endpoint}
    (h : networkOf text arguments = .ok e) : e.Nameable := by
  unfold networkOf at h
  cases hcut : cutFirst ':' arguments with
  | none =>
    rw [hcut] at h
    exact nomatch h
  | some parts =>
    obtain ⟨host, digits⟩ := parts
    rw [hcut] at h
    obtain ⟨n, rfl, hn⟩ := nameable_port h
    exact ⟨by simpa using (cutFirst_eq_some.1 hcut).2, hn⟩

theorem nameable_of_parse {text : String} {r : Registry} (regular : r.Regular) {e : Endpoint}
    (h : (parse text r).result = .ok e) : e.Nameable := by
  cases hcut : cutFirst '@' text.toList with
  | none =>
    rw [parse, hcut] at h
    exact absurd h Act.fail_ne_ok
  | some parts =>
    obtain ⟨kind, arguments⟩ := parts
    by_cases hnil : arguments = []
    · rw [parse, hcut, hnil] at h
      exact absurd h Act.fail_ne_ok
    · rw [parse_of_cut hcut hnil] at h
      split_ifs at h with hserial hforwarder hnetwork
      · exact nameable_serialOf regular h
      · rw [Act.run_lift] at h
        exact nameable_forwarderOf h
      · rw [Act.run_lift] at h
        exact nameable_networkOf h
      · exact absurd h Act.fail_ne_ok

/-- An endpoint that was read can be described, and its description is read as itself, whatever the
registry, which is left alone. -/
theorem describe_of_parse {text : String} {r : Registry} (regular : r.Regular) {e : Endpoint}
    (h : (parse text r).result = .ok e) :
    ∃ description, e.describe? = some description ∧
      ∀ other : Registry, parse description other = ⟨.ok e, other, []⟩ := by
  have hnameable := nameable_of_parse regular h
  exact ⟨e.describe, if_pos hnameable.writable, parse_describe hnameable⟩

theorem describe_of_parse_platform :
    let bench : Registry := { setup := [.insert "bench" 9600] }
    bench.Regular ∧
      (parse "serial@/dev/a:b@c:bench" bench).result = .ok (.serial "/dev/a:b@c" 9600) ∧
      ∃ description, (serial "/dev/a:b@c" 9600).describe? = some description ∧
        ∀ other : Registry,
          parse description other = ⟨.ok (.serial "/dev/a:b@c" 9600), other, []⟩ := by
  intro bench
  have hregular : bench.Regular := by
    refine Registry.regular_of_rates (fun _ => .inl rfl) fun name baud hmem => ?_
    obtain ⟨-, rfl⟩ := SetupStep.insert.inj (List.mem_singleton.1 hmem)
    decide
  have hparse :
      (parse "serial@/dev/a:b@c:bench" bench).result = .ok (.serial "/dev/a:b@c" 9600) := by
    decide +kernel
  exact ⟨hregular, hparse, describe_of_parse hregular hparse⟩

end MoteLink.Endpoint
