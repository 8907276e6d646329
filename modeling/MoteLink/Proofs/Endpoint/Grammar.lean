import Mathlib.Tactic.SplitIfs
import MoteLink.Proofs.Endpoint.Faults
import MoteLink.Proofs.Trace

/-! The texts that name endpoints. Each has one of six forms, by its kind and by where its colons
stand, and its parts are fixed by the text. Main statement: `parse_iff_form`, reading accepts these
texts and no others, and asks the registry for the names of platforms only. -/

namespace MoteLink.Endpoint
open Text

inductive Form where
  | device (path : String)
  | rated (path speed : String)
  | platform (path name : String)
  | forwarder (host : String)
  | forwarderAt (host port : String)
  | networkAt (host port : String)
  deriving DecidableEq, Repr

namespace Form

def text : Form → String
  | device path => "serial@" ++ path
  | rated path speed | platform path speed => "serial@" ++ path ++ ":" ++ speed
  | forwarder host => "sf@" ++ host
  | forwarderAt host port => "sf@" ++ host ++ ":" ++ port
  | networkAt host port => "network@" ++ host ++ ":" ++ port

/-- Colons stand where they cannot be taken for others, and a speed is not both number and name. -/
def WellFormed : Form → Prop
  | device path => path ≠ "" ∧ ':' ∉ path.toList
  | rated _ speed => ':' ∉ speed.toList ∧ Numeral.isDigits speed = true
  | platform _ name => ':' ∉ name.toList ∧ Numeral.isDigits name = false
  | forwarder host => host ≠ "" ∧ ':' ∉ host.toList
  | forwarderAt host _ | networkAt host _ => ':' ∉ host.toList

def endpoint : Form → Int → Endpoint
  | device path, n | rated path _, n | platform path _, n => .serial path n
  | forwarder host, n | forwarderAt host _, n => .forwarder host n
  | networkAt host _, n => .network host n

/-- The number that belongs to a form: the usual one, the one written, or the speed registered. -/
def Figure (r : Registry) : Form → Int → Prop
  | device _, n => n = 57600
  | rated _ speed, n => Numeral.read speed = .ok n
  | platform _ name, n => (Registry.find name r).result = .ok n ∧ n ≠ -1
  | forwarder _, n => n = 9002
  | forwarderAt _ port, n | networkAt _ port, n => Numeral.read port = .ok n

/-- The text of a form is `text`. -/
def Spells (f : Form) (text : String) : Prop := f.WellFormed ∧ f.text = text

/-- How the number of a form is found. -/
def figure (f : Form) : Act Registry Int :=
  match f with
  | device _ => pure usualBaud
  | rated _ speed | platform _ speed => baud speed
  | forwarder _ => pure forwarderPort
  | forwarderAt _ port | networkAt _ port => Act.lift (Endpoint.port f.text port.toList)

def act (f : Form) : Act Registry Endpoint := f.endpoint <$> f.figure

def ofSerial (arguments : List Char) : Form :=
  match cutLast ':' arguments with
  | none => device (String.ofList arguments)
  | some (path, speed) =>
    if Numeral.isDigits (String.ofList speed) then
      rated (String.ofList path) (String.ofList speed)
    else platform (String.ofList path) (String.ofList speed)

def ofForwarder (arguments : List Char) : Form :=
  match cutFirst ':' arguments with
  | none => forwarder (String.ofList arguments)
  | some (host, port) => forwarderAt (String.ofList host) (String.ofList port)

def ofNetwork? (arguments : List Char) : Option Form :=
  (cutFirst ':' arguments).map fun (host, port) =>
    networkAt (String.ofList host) (String.ofList port)

/-- The form of a text, if it has one. -/
def of? (text : String) : Option Form :=
  match cutFirst '@' text.toList with
  | none | some (_, []) => none
  | some (kind, arguments) =>
    if kind = "serial".toList then some (ofSerial arguments)
    else if kind = "sf".toList then some (ofForwarder arguments)
    else if kind = "network".toList then ofNetwork? arguments
    else none

theorem of?_of_kind {text : String} {kind arguments : List Char}
    (h : text.toList = kind ++ '@' :: arguments) (hkind : '@' ∉ kind) (hne : arguments ≠ []) :
    of? text =
      if kind = "serial".toList then some (ofSerial arguments)
      else if kind = "sf".toList then some (ofForwarder arguments)
      else if kind = "network".toList then ofNetwork? arguments
      else none := by
  rw [of?, cutFirst_eq_some.2 ⟨h, hkind⟩]
  cases arguments with
  | nil => exact absurd rfl hne
  | cons c rest => rfl

theorem ofSerial_cut (path : String) {speed : String} (h : ':' ∉ speed.toList) :
    ofSerial (path.toList ++ ':' :: speed.toList) =
      if Numeral.isDigits speed then rated path speed else platform path speed := by
  have hcut : cutLast ':' (path.toList ++ ':' :: speed.toList) =
      some (path.toList, speed.toList) := cutLast_eq_some.2 ⟨rfl, h⟩
  rw [ofSerial, hcut]
  simp only [String.ofList_toList]

theorem cutFirst_host {host : String} (h : ':' ∉ host.toList) (port : String) :
    cutFirst ':' (host.toList ++ ':' :: port.toList) = some (host.toList, port.toList) :=
  cutFirst_eq_some.2 ⟨rfl, h⟩

/-- A form is found again in its text. -/
theorem of?_text {f : Form} (h : f.WellFormed) : of? f.text = some f := by
  cases f with
  | device path =>
    have htext : (device path).text.toList = "serial".toList ++ '@' :: path.toList := by simp [text]
    have hcut : cutLast ':' path.toList = none := cutLast_eq_none.2 h.2
    rw [of?_of_kind htext (by decide) (by simpa using h.1), if_pos rfl, ofSerial, hcut,
      String.ofList_toList]
  | rated path speed =>
    have htext : (rated path speed).text.toList =
        "serial".toList ++ '@' :: (path.toList ++ ':' :: speed.toList) := by simp [text]
    rw [of?_of_kind htext (by decide) (by simp), if_pos rfl, ofSerial_cut path h.1, if_pos h.2]
  | platform path name =>
    have htext : (platform path name).text.toList =
        "serial".toList ++ '@' :: (path.toList ++ ':' :: name.toList) := by simp [text]
    rw [of?_of_kind htext (by decide) (by simp), if_pos rfl, ofSerial_cut path h.1,
      if_neg (Bool.eq_false_iff.1 h.2)]
  | forwarder host =>
    have htext : (forwarder host).text.toList = "sf".toList ++ '@' :: host.toList := by simp [text]
    have hcut : cutFirst ':' host.toList = none := cutFirst_eq_none.2 h.2
    rw [of?_of_kind htext (by decide) (by simpa using h.1), if_neg (by decide), if_pos rfl,
      ofForwarder, hcut, String.ofList_toList]
  | forwarderAt host port =>
    have htext : (forwarderAt host port).text.toList =
        "sf".toList ++ '@' :: (host.toList ++ ':' :: port.toList) := by simp [text]
    rw [of?_of_kind htext (by decide) (by simp), if_neg (by decide), if_pos rfl, ofForwarder,
      cutFirst_host h]
    simp only [String.ofList_toList]
  | networkAt host port =>
    have htext : (networkAt host port).text.toList =
        "network".toList ++ '@' :: (host.toList ++ ':' :: port.toList) := by simp [text]
    rw [of?_of_kind htext (by decide) (by simp), if_neg (by decide), if_neg (by decide),
      if_pos rfl, ofNetwork?, cutFirst_host h]
    simp only [String.ofList_toList, Option.map_some]

theorem eq_of_spells {f g : Form} {text : String} (hf : f.Spells text) (hg : g.Spells text) :
    f = g := by
  have hfound := of?_text hf.1
  rw [hf.2, ← hg.2, of?_text hg.1] at hfound
  exact (Option.some.inj hfound).symm

/-- The rest of the text behind a kind. -/
theorem text_of_kind {text kind : String} {arguments : List Char}
    (h : text.toList = kind.toList ++ '@' :: arguments) :
    text = kind ++ "@" ++ String.ofList arguments :=
  String.toList_inj.1 (by simp [h])

theorem spells_ofSerial {text : String} {arguments : List Char}
    (h : text.toList = "serial".toList ++ '@' :: arguments) (hne : arguments ≠ []) :
    (ofSerial arguments).Spells text ∧ serialOf arguments = (ofSerial arguments).act := by
  unfold ofSerial serialOf
  cases hcut : cutLast ':' arguments with
  | none =>
    refine ⟨⟨⟨by simpa using hne, ?_⟩, ?_⟩, rfl⟩
    · simpa using cutLast_eq_none.1 hcut
    · exact (text_of_kind h).symm
  | some parts =>
    obtain ⟨path, speed⟩ := parts
    obtain ⟨rfl, hcolon⟩ := cutLast_eq_some.1 hcut
    have htext : text = "serial@" ++ String.ofList path ++ ":" ++ String.ofList speed :=
      String.toList_inj.1 (by simp [h])
    have hspeed : ':' ∉ (String.ofList speed).toList := by simpa using hcolon
    dsimp only
    split
    · rename_i hdigits
      exact ⟨⟨⟨hspeed, hdigits⟩, htext.symm⟩, rfl⟩
    · rename_i hdigits
      exact ⟨⟨⟨hspeed, Bool.eq_false_iff.2 hdigits⟩, htext.symm⟩, rfl⟩

theorem spells_ofForwarder {text : String} {arguments : List Char}
    (h : text.toList = "sf".toList ++ '@' :: arguments) (hne : arguments ≠ []) :
    (ofForwarder arguments).Spells text ∧
      Act.lift (forwarderOf text arguments) = (ofForwarder arguments).act := by
  unfold ofForwarder forwarderOf
  cases hcut : cutFirst ':' arguments with
  | none =>
    refine ⟨⟨⟨by simpa using hne, ?_⟩, ?_⟩, rfl⟩
    · simpa using cutFirst_eq_none.1 hcut
    · exact (text_of_kind h).symm
  | some parts =>
    obtain ⟨host, port⟩ := parts
    obtain ⟨rfl, hcolon⟩ := cutFirst_eq_some.1 hcut
    have htext : text = "sf@" ++ String.ofList host ++ ":" ++ String.ofList port :=
      String.toList_inj.1 (by simp [h])
    refine ⟨⟨by simpa [WellFormed] using hcolon, htext.symm⟩, ?_⟩
    rw [act, figure, Act.map_lift, String.toList_ofList, htext]
    rfl

theorem spells_ofNetwork? {text : String} {arguments : List Char}
    (h : text.toList = "network".toList ++ '@' :: arguments) :
    (∃ f, ofNetwork? arguments = some f ∧ f.Spells text ∧
        Act.lift (networkOf text arguments) = f.act) ∨
      ofNetwork? arguments = none ∧ ∃ fault, networkOf text arguments = .error fault := by
  unfold ofNetwork? networkOf
  cases hcut : cutFirst ':' arguments with
  | none => exact .inr ⟨rfl, .source (.noPort text), rfl⟩
  | some parts =>
    obtain ⟨host, port⟩ := parts
    obtain ⟨rfl, hcolon⟩ := cutFirst_eq_some.1 hcut
    have htext : text = "network@" ++ String.ofList host ++ ":" ++ String.ofList port :=
      String.toList_inj.1 (by simp [h])
    refine .inl ⟨_, rfl, ⟨by simpa [WellFormed] using hcolon, htext.symm⟩, ?_⟩
    rw [act, figure, Act.map_lift, String.toList_ofList, htext]
    rfl

/-- A text is read by its form, and is refused if it has none. -/
theorem parse_by_form (text : String) :
    (∃ f, of? text = some f ∧ f.Spells text ∧ parse text = f.act) ∨
      of? text = none ∧ ∃ fault, parse text = Act.fail fault := by
  cases hcut : cutFirst '@' text.toList with
  | none => exact .inr ⟨by rw [of?, hcut], .source (.invalid text), by rw [parse, hcut]⟩
  | some parts =>
    obtain ⟨kind, arguments⟩ := parts
    obtain ⟨htext, hkind⟩ := cutFirst_eq_some.1 hcut
    by_cases hnil : arguments = []
    · exact .inr ⟨by rw [of?, hcut, hnil], .source (.invalid text), by rw [parse, hcut, hnil]⟩
    · rw [parse_of_cut hcut hnil, of?_of_kind htext hkind hnil]
      split_ifs with hserial hforwarder hnetwork
      · exact .inl ⟨_, rfl, spells_ofSerial (hserial ▸ htext) hnil⟩
      · exact .inl ⟨_, rfl, spells_ofForwarder (hforwarder ▸ htext) hnil⟩
      · rcases spells_ofNetwork? (hnetwork ▸ htext) with hform | ⟨hnone, fault, hfault⟩
        · exact .inl hform
        · exact .inr ⟨hnone, fault, by rw [hfault]; rfl⟩
      · exact .inr ⟨rfl, .source (.invalid text), rfl⟩

theorem parse_of_spells {f : Form} {text : String} (h : f.Spells text) : parse text = f.act := by
  have hfound : of? text = some f := h.2 ▸ of?_text h.1
  rcases parse_by_form text with ⟨g, -, hspells, hact⟩ | ⟨hnone, -⟩
  · rw [hact, eq_of_spells hspells h]
  · exact nomatch hfound.symm.trans hnone

theorem baud_of_digits {speed : String} (h : Numeral.isDigits speed = true) :
    baud speed = Act.lift ((Numeral.read speed).mapError .numeral) := if_pos h

/-- A name is looked up, and must be known. -/
theorem baud_of_name {name : String} (h : Numeral.isDigits name = false) (r : Registry) :
    ∃ result, baud name r = ⟨result, (Registry.find name r).state, (Registry.find name r).trace⟩ ∧
      ∀ n, result = .ok n ↔ (Registry.find name r).result = .ok n ∧ n ≠ -1 := by
  rw [baud, if_neg (Bool.eq_false_iff.1 h), Act.run_bind]
  obtain ⟨found, s, t⟩ := Registry.find name r
  cases found with
  | error fault => exact ⟨.error fault, rfl, by simp⟩
  | ok speed =>
    by_cases hunknown : speed = Registry.unknown
    · refine ⟨.error (.source (.unknownPlatform name)), by simp [hunknown, Outcome.after], ?_⟩
      rintro n
      simp only [reduceCtorEq, Except.ok.injEq, false_iff, not_and]
      rintro rfl hknown
      exact hknown hunknown
    · refine ⟨.ok speed, by simp [hunknown, Outcome.after], fun n => ?_⟩
      simp only [Except.ok.injEq, iff_self_and]
      rintro rfl
      exact hunknown

/-- Unless it is registered, the number of a form is found in its text. -/
theorem figure_of_text {f : Form} (h : f.WellFormed) (hname : ∀ path name, f ≠ platform path name) :
    ∃ found, f.figure = Act.lift found ∧
      ∀ (r : Registry) (n : Int), found = .ok n ↔ f.Figure r n := by
  cases f with
  | device path => exact ⟨.ok usualBaud, rfl, fun r n => by simp [Figure, usualBaud, eq_comm]⟩
  | rated path speed =>
    refine ⟨(Numeral.read speed).mapError .numeral, baud_of_digits h.2, fun r n => ?_⟩
    simp only [Figure]
    cases Numeral.read speed <;> simp [Except.mapError]
  | platform path name => exact absurd rfl (hname path name)
  | forwarder host =>
    exact ⟨.ok forwarderPort, rfl, fun r n => by simp [Figure, forwarderPort, eq_comm]⟩
  | forwarderAt host port =>
    refine ⟨Endpoint.port (forwarderAt host port).text port.toList, rfl, fun r n => ?_⟩
    simp only [Figure]
    rw [port_eq_ok, String.ofList_toList]
  | networkAt host port =>
    refine ⟨Endpoint.port (networkAt host port).text port.toList, rfl, fun r n => ?_⟩
    simp only [Figure]
    rw [port_eq_ok, String.ofList_toList]

/-- Except for the names of platforms a form is read without the registry. -/
theorem act_of_text {f : Form} (h : f.WellFormed) (hname : ∀ path name, f ≠ platform path name) :
    ∃ found, f.act = Act.lift found ∧
      ∀ (r : Registry) (e : Endpoint), found = .ok e ↔ ∃ n, f.Figure r n ∧ e = f.endpoint n := by
  obtain ⟨number, hfigure, hnumber⟩ := figure_of_text h hname
  refine ⟨number.map f.endpoint, by rw [act, hfigure, Act.map_lift], fun r e => ?_⟩
  simp only [← hnumber r]
  cases number <;> simp [Except.map, eq_comm]

theorem act_of_name {path name : String} (h : (platform path name).WellFormed) (r : Registry) :
    ((platform path name).act r).state = (Registry.find name r).state ∧
      ((platform path name).act r).trace = (Registry.find name r).trace ∧
      ∀ e : Endpoint, ((platform path name).act r).result = .ok e ↔
        ∃ n, (platform path name).Figure r n ∧ e = .serial path n := by
  obtain ⟨result, hbaud, hresult⟩ := baud_of_name h.2 r
  rw [act, Act.run_map]
  simp only [figure, hbaud, Outcome.map, Figure, ← hresult, true_and]
  intro e
  cases result <;> simp [Except.map, endpoint, eq_comm]

theorem act_ok_iff {f : Form} (h : f.WellFormed) (r : Registry) (e : Endpoint) :
    (f.act r).result = .ok e ↔ ∃ n, f.Figure r n ∧ e = f.endpoint n := by
  have htext (hname : ∀ path name, f ≠ platform path name) :
      (f.act r).result = .ok e ↔ ∃ n, f.Figure r n ∧ e = f.endpoint n := by
    obtain ⟨found, hact, hfound⟩ := act_of_text h hname
    rw [hact, Act.run_lift]
    exact hfound r e
  cases f with
  | platform path name => exact (act_of_name h r).2.2 e
  | device | rated | forwarder | forwarderAt | networkAt => exact htext nofun

end Form

/-- Reading gives an endpoint exactly for the texts of the forms, of which a text has one at most,
and with the number that belongs to the form; it faults on every other text. Only the name of a
platform makes it use the registry, and then as looking the name up does. -/
theorem parse_iff_form (text : String) :
    (∀ (r : Registry) (e : Endpoint), (parse text r).result = .ok e ↔
        ∃ f : Form, f.Spells text ∧ ∃ n, f.Figure r n ∧ e = f.endpoint n) ∧
      (∀ f g : Form, f.Spells text → g.Spells text → f = g) ∧
      (∀ r : Registry, (¬ ∃ f : Form, f.Spells text ∧ ∃ n, f.Figure r n) →
        ∃ fault, (parse text r).result = .error fault) ∧
      (∀ path name : String, (Form.platform path name).Spells text → ∀ r : Registry,
        (parse text r).state = (Registry.find name r).state ∧
          (parse text r).trace = (Registry.find name r).trace ∧
          (r.Mild → ∃ n, (Registry.find name r).result = .ok n)) ∧
      ((∀ path name : String, ¬ (Form.platform path name).Spells text) →
        ∃ result, ∀ r : Registry, parse text r = ⟨result, r, []⟩) := by
  have haccepts : ∀ (r : Registry) (e : Endpoint), (parse text r).result = .ok e ↔
      ∃ f : Form, f.Spells text ∧ ∃ n, f.Figure r n ∧ e = f.endpoint n := by
    intro r e
    constructor
    · intro hok
      rcases Form.parse_by_form text with ⟨f, -, hspells, hact⟩ | ⟨-, fault, hfault⟩
      · rw [hact, Form.act_ok_iff hspells.1] at hok
        exact ⟨f, hspells, hok⟩
      · rw [hfault] at hok
        exact absurd hok Act.fail_ne_ok
    · rintro ⟨f, hspells, hfigure⟩
      rw [Form.parse_of_spells hspells, Form.act_ok_iff hspells.1]
      exact hfigure
  refine ⟨haccepts, fun f g => Form.eq_of_spells, fun r hnone => ?_, fun path name hspells r => ?_,
    fun hname => ?_⟩
  · cases hresult : (parse text r).result with
    | error fault => exact ⟨fault, rfl⟩
    | ok e =>
      obtain ⟨f, hspells, n, hfigure, -⟩ := (haccepts r e).1 hresult
      exact absurd ⟨f, hspells, n, hfigure⟩ hnone
  · obtain ⟨hstate, htrace, -⟩ := Form.act_of_name hspells.1 r
    rw [Form.parse_of_spells hspells]
    exact ⟨hstate, htrace, fun mild => mild.find name⟩
  · rcases Form.parse_by_form text with ⟨f, -, hspells, hact⟩ | ⟨-, fault, hfault⟩
    · obtain ⟨found, hfound, -⟩ := Form.act_of_text hspells.1 fun path name hf =>
        hname path name (hf ▸ hspells)
      exact ⟨found, fun r => by rw [hact, hfound, Act.run_lift]⟩
    · exact ⟨.error fault, fun r => by rw [hfault, Act.run_fail]⟩

theorem parse_iff_form_bench :
    let bench : Registry := { setup := [.insert "bench" 9600] }
    let form : Form := .platform "a:b@" "bench"
    form.Spells "serial@a:b@:bench" ∧ form.Figure bench 9600 ∧ bench.Mild ∧
      (parse "serial@a:b@:bench" bench).result = .ok (.serial "a:b@" 9600) ∧
      (parse "serial@a:b@:bench" bench).state = (Registry.find "bench" bench).state ∧
      (∀ f : Form, f.Spells "serial@a:b@:bench" → f = form) ∧
      (Form.forwarderAt "" " +80").Spells "sf@: +80" ∧
      ∀ r : Registry, parse "sf@: +80" r = ⟨.ok (.forwarder "" 80), r, []⟩ := by
  intro bench form
  have hspells : form.Spells "serial@a:b@:bench" := ⟨⟨by decide, by decide +kernel⟩, rfl⟩
  have hfigure : form.Figure bench 9600 := ⟨rfl, by decide⟩
  have hmild : bench.Mild := Registry.mild_ofSetup [("bench", 9600)]
  obtain ⟨haccepts, hunique, -, hname, -⟩ := parse_iff_form "serial@a:b@:bench"
  have hother : (Form.forwarderAt "" " +80").Spells "sf@: +80" := ⟨by simp [Form.WellFormed], rfl⟩
  obtain ⟨haccepts', hunique', -, -, htext⟩ := parse_iff_form "sf@: +80"
  obtain ⟨result, hresult⟩ := htext fun path name h => nomatch hunique' _ _ hother h
  have hport : (parse "sf@: +80" bench).result = .ok (.forwarder "" 80) :=
    (haccepts' bench _).2 ⟨_, hother, 80, rfl, rfl⟩
  refine ⟨hspells, hfigure, hmild, (haccepts bench _).2 ⟨form, hspells, 9600, hfigure, rfl⟩,
    (hname _ _ hspells bench).1, fun f h => hunique f form h hspells, hother, fun r => ?_⟩
  rw [hresult] at hport ⊢
  rw [show result = .ok (.forwarder "" 80) from hport]

end MoteLink.Endpoint
