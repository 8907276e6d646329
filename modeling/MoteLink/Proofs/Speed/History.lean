import MoteLink.Proofs.Trace
import MoteLink.Speed.Registry

/-! What a registry answers, by all the registrations there have been before: those of its setup and
then those of its callers. Main statement: `serve_new`, where the setup runs at the first use and
never again. -/

namespace MoteLink.Registry

inductive Use where
  | insert (name : String) (baud : Int)
  | find (name : String)
  deriving DecidableEq, Repr

namespace Use

def act : Use → Act Registry (Option Int)
  | .insert name baud => do
    Registry.insert name baud
    return none
  | .find name => return some (← Registry.find name)

def entry? : Use → Option (String × Int)
  | .insert name baud => some (name, baud)
  | .find _ => none

end Use

/-- The registrations among some uses, in their order. -/
def entries (uses : List Use) : List (String × Int) := uses.filterMap Use.entry?

/-- The speed registered last under a name, if there is one. -/
def latest? (uses : List Use) (name : String) : Option Int :=
  ((entries uses).filter fun entry => entry.1 = name).getLast?.map (·.2)

def latest (uses : List Use) (name : String) : Int := (latest? uses name).getD unknown

theorem mem_of_latest? {uses : List Use} {name : String} {baud : Int}
    (h : latest? uses name = some baud) : .insert name baud ∈ uses := by
  obtain ⟨entry, hlast, rfl⟩ := Option.map_eq_some_iff.1 h
  obtain ⟨hentry, hname⟩ := List.mem_filter.1 (List.mem_of_getLast? hlast)
  obtain ⟨use, huse, hsome⟩ := List.mem_filterMap.1 hentry
  cases use with
  | insert n baud =>
    obtain rfl := Option.some.inj hsome
    obtain rfl : n = name := of_decide_eq_true hname
    exact huse
  | find n => simp [Use.entry?] at hsome

theorem latest_mem (uses : List Use) (name : String) :
    latest uses name = unknown ∨ .insert name (latest uses name) ∈ uses := by
  unfold latest
  cases hlast : latest? uses name with
  | none => exact .inl rfl
  | some baud => exact .inr (mem_of_latest? hlast)

/-- What a use answers, given the uses before it. -/
def Use.answer (before : List Use) : Use → Option Int
  | .insert .. => none
  | .find name => some (latest before name)

def answers (before : List Use) : List Use → List (Option Int)
  | [] => []
  | use :: rest => use.answer before :: answers (before ++ [use]) rest

/-- All the uses made by the end of each. -/
def histories (before : List Use) : List Use → List (List Use)
  | [] => []
  | use :: rest => (before ++ [use]) :: histories (before ++ [use]) rest

/-- Uses one after the other. Each finds the registry as the one before left it, faulty or not. -/
def serve (r : Registry) : List Use → List (Outcome Registry (Option Int))
  | [] => []
  | use :: rest => use.act r :: serve (use.act r).state rest

/-- The uses that a setup makes up to its end or its fault. -/
def completed : List SetupStep → List Use
  | [] => []
  | .insert name baud :: rest => .insert name baud :: completed rest
  | .find name :: rest => .find name :: completed rest
  | .fails _ :: _ => []

/-- The fault that ends a setup, if one does. -/
def failure : List SetupStep → Option Fault
  | [] => none
  | .insert .. :: rest | .find _ :: rest => failure rest
  | .fails fault :: _ => some fault

def interruption (setup : List SetupStep) : Option Fault := (failure setup).filter Fault.isInterrupt

theorem mem_of_mem_completed {setup : List SetupStep} {name : String} {baud : Int}
    (h : .insert name baud ∈ completed setup) : .insert name baud ∈ setup := by
  fun_induction completed setup with
  | case1 => exact nomatch h
  | case2 n b rest ih =>
    rcases List.mem_cons.1 h with heq | hrest
    · obtain ⟨rfl, rfl⟩ := Use.insert.inj heq
      exact List.mem_cons_self
    · exact List.mem_cons_of_mem _ (ih hrest)
  | case3 n rest ih =>
    rcases List.mem_cons.1 h with heq | hrest
    · exact nomatch heq
    · exact List.mem_cons_of_mem _ (ih hrest)
  | case4 => exact nomatch h

/-- What a setup reads of the registry that it fills. -/
def readings (before : List Use) (uses : List Use) : Trace :=
  (answers before uses).filterMap (·.map .setupRead)

def warning : Option Fault → Trace
  | some fault => if fault.isInterrupt then [] else [.notice .platformsFailed]
  | none => []

/-- A step of a setup as a use of the registry like any other. -/
def call : SetupStep → Act Registry Unit
  | .insert name baud => insert name baud
  | .find name => do Act.emit (.setupRead (← find name))
  | .fails fault => Act.fail fault

/-- The first use where the setup uses the registry in its turn. -/
def reentering : Act Registry Unit := do
  if ← Act.look (·.speeds.isNone) then
    Act.update fun r => { r with speeds := some [] }
    Act.emit .setup
    match ← Act.attempt (Act.each call (← Act.look (·.setup))) with
    | .ok () => pure ()
    | .error fault =>
      if fault.isInterrupt then Act.fail fault else Act.emit (.notice .platformsFailed)

/-- What is registered under a name. -/
def get? (r : Registry) (name : String) : Option Int := Speeds.find? name (r.speeds.getD [])

/-- In use, with the entries that follow from the uses before. -/
structure Follows (r : Registry) (before : List Use) : Prop where
  used : r.speeds.isSome = true
  get? : ∀ name, r.get? name = latest? before name

theorem Follows.get {r : Registry} {before : List Use} (h : r.Follows before) (name : String) :
    r.get name = latest before name :=
  congrArg (Option.getD · unknown) (h.get? name)

theorem ready_of_used {r : Registry} (h : r.speeds.isSome = true) : ready r = ⟨.ok (), r, []⟩ := by
  obtain ⟨s, hs⟩ := Option.isSome_iff_exists.1 h
  unfold ready
  rw [Act.bind_ok (Act.run_look _ _), hs]
  rfl

theorem call_eq_perform (step : SetupStep) {r : Registry} (h : r.speeds.isSome = true) :
    call step r = perform step r := by
  cases step with
  | insert name baud =>
    exact Act.bind_ok (ready_of_used h) _
  | find name =>
    have hfind : find name r = ⟨.ok (r.get name), r, []⟩ := Act.bind_ok (ready_of_used h) _
    exact Act.bind_ok hfind _
  | fails fault => rfl

theorem latest?_append_insert (before : List Use) (name n : String) (baud : Int) :
    latest? (before ++ [.insert name baud]) n =
      if name = n then some baud else latest? before n := by
  by_cases h : name = n <;> simp [latest?, entries, Use.entry?, h]

theorem latest?_append_find (before : List Use) (name n : String) :
    latest? (before ++ [.find name]) n = latest? before n := by
  have hsame : entries (before ++ [.find name]) = entries before := by
    rw [entries, List.filterMap_append]
    exact List.append_nil _
  rw [latest?, hsame, latest?]

theorem get?_put (r : Registry) (name n : String) (baud : Int) :
    (r.put name baud).get? n = if name = n then some baud else r.get? n :=
  Speeds.find?_insert ..

theorem Follows.put {r : Registry} {before : List Use} (h : r.Follows before) (name : String)
    (baud : Int) : (r.put name baud).Follows (before ++ [.insert name baud]) :=
  ⟨rfl, fun n => by rw [get?_put, latest?_append_insert, h.get?]⟩

theorem Follows.find {r : Registry} {before : List Use} (h : r.Follows before) (name : String) :
    r.Follows (before ++ [.find name]) :=
  ⟨h.used, fun n => by rw [latest?_append_find, h.get?]⟩

/-- Any use first makes the registry ready. -/
theorem act_of_ready {r r' : Registry} {trace : Trace} {before : List Use}
    (hready : ready r = ⟨.ok (), r', trace⟩) (h : r'.Follows before) (use : Use) :
    ∃ r'', use.act r = ⟨.ok (use.answer before), r'', trace⟩ ∧ r''.Follows (before ++ [use]) := by
  cases use with
  | insert name baud =>
    have hinsert : insert name baud r = ⟨.ok (), r'.put name baud, trace⟩ := by
      rw [insert, Act.bind_ok hready]
      simp [Outcome.after]
    refine ⟨_, ?_, h.put name baud⟩
    rw [Use.act, Act.bind_ok hinsert]
    simp [Outcome.after, Use.answer]
  | find name =>
    have hfind : Registry.find name r = ⟨.ok (latest before name), r', trace⟩ := by
      rw [← h.get, Registry.find, Act.bind_ok hready]
      simp [Outcome.after]
    refine ⟨r', ?_, h.find name⟩
    rw [Use.act, Act.bind_ok hfind]
    simp [Outcome.after, Use.answer]

theorem act_of_not_ready {r r' : Registry} {trace : Trace} {fault : Fault}
    (hready : ready r = ⟨.error fault, r', trace⟩) (use : Use) :
    use.act r = ⟨.error fault, r', trace⟩ := by
  cases use with
  | insert name baud =>
    exact Act.bind_error (Act.bind_error hready _) _
  | find name => exact Act.bind_error (Act.bind_error hready _) _

theorem Follows.serve {r : Registry} {before : List Use} (h : r.Follows before)
    (uses : List Use) :
    (serve r uses).map (·.result) = (answers before uses).map .ok ∧
      (serve r uses).map (·.trace) = uses.map (fun _ => []) ∧
      ∀ name, (serve r uses).map (·.state.get? name) =
        (histories before uses).map (latest? · name) := by
  induction uses generalizing r before with
  | nil => exact ⟨rfl, rfl, fun _ => rfl⟩
  | cons use rest ih =>
    obtain ⟨r', hact, hfollows⟩ := act_of_ready (ready_of_used h.used) h use
    obtain ⟨hresults, htraces, hstates⟩ := ih hfollows
    simp only [Registry.serve, answers, histories, List.map_cons, hact]
    refine ⟨congrArg _ hresults, congrArg _ htraces, fun name => ?_⟩
    rw [hstates, hfollows.get?]

/-- A setup ends or faults after the uses that it completes. -/
theorem Follows.perform {r : Registry} {before : List Use} (h : r.Follows before)
    (steps : List SetupStep) :
    ∃ r', Act.each perform steps r =
        ⟨(failure steps).elim (.ok ()) .error, r', readings before (completed steps)⟩ ∧
      r'.Follows (before ++ completed steps) := by
  induction steps generalizing r before with
  | nil => exact ⟨r, rfl, by rwa [completed, List.append_nil]⟩
  | cons step rest ih =>
    cases step with
    | insert name baud =>
      obtain ⟨r', hrun, hfollows⟩ := ih (h.put name baud)
      refine ⟨r', ?_, by rwa [List.append_assoc] at hfollows⟩
      have hstep : Registry.perform (.insert name baud) r = ⟨.ok (), r.put name baud, []⟩ := rfl
      rw [Act.each, Act.bind_ok hstep, hrun]
      rfl
    | find name =>
      obtain ⟨r', hrun, hfollows⟩ := ih (h.find name)
      refine ⟨r', ?_, by rwa [List.append_assoc] at hfollows⟩
      have hstep : Registry.perform (.find name) r =
          ⟨.ok (), r, [.setupRead (latest before name)]⟩ := by
        rw [← h.get]
        rfl
      rw [Act.each, Act.bind_ok hstep, hrun]
      rfl
    | fails fault => exact ⟨r, rfl, by rwa [completed, List.append_nil]⟩

theorem each_call (steps : List SetupStep) {r : Registry} (h : r.speeds.isSome = true) :
    Act.each call steps r = Act.each perform steps r := by
  induction steps generalizing r with
  | nil => rfl
  | cons step rest ih =>
    rw [Act.each, Act.each, Act.run_bind, Act.run_bind, call_eq_perform step h]
    cases step with
    | insert name baud => exact congrArg (Outcome.after _) (ih rfl)
    | find name => exact congrArg (Outcome.after _) (ih h)
    | fails fault => rfl

theorem ready_eq_reentering : ready = reentering := by
  funext r
  unfold ready reentering
  rw [Act.bind_ok (Act.run_look _ _), Act.bind_ok (Act.run_look _ _)]
  cases r.speeds.isNone with
  | false => rfl
  | true =>
    have hattempt : Act.attempt (Act.each perform r.setup) { r with speeds := some [] } =
        Act.attempt (Act.each call r.setup) { r with speeds := some [] } := by
      rw [Act.attempt, Act.attempt, each_call r.setup rfl]
    simp only [if_true, Act.bind_ok (Act.run_update _ _), Act.bind_ok (Act.run_emit _ _),
      Act.bind_ok (Act.run_look _ _)]
    exact congrArg _ (congrArg _ (congrArg _ (congrArg _ (Act.bind_congr_left hattempt _))))

theorem follows_used (setup : List SetupStep) :
    Follows { setup, speeds := some [] } [] :=
  ⟨rfl, fun _ => rfl⟩

/-- The first use of a registry, before it is served itself. -/
theorem ready_new (setup : List SetupStep) :
    ∃ r', ready { setup } =
        ⟨(interruption setup).elim (.ok ()) .error, r',
          .setup :: readings [] (completed setup) ++ warning (failure setup)⟩ ∧
      r'.Follows (completed setup) := by
  obtain ⟨r', hrun, hfollows⟩ := (follows_used setup).perform setup
  refine ⟨r', ?_, hfollows⟩
  have hattempt : Act.attempt (Act.each perform setup) { setup, speeds := some [] } =
      ⟨.ok ((failure setup).elim (.ok ()) .error), r', readings [] (completed setup)⟩ := by
    rw [Act.attempt, hrun]
  unfold ready
  rw [Act.bind_ok (Act.run_look _ _)]
  simp only [Option.isNone_none, if_true]
  rw [Act.bind_ok (Act.run_update _ _), Act.bind_ok (Act.run_emit _ _),
    Act.bind_ok (Act.run_look _ _), Act.bind_ok hattempt]
  cases hfailure : failure setup with
  | none => simp [interruption, hfailure, warning, Outcome.after]
  | some fault =>
    cases hkind : fault.isInterrupt <;>
      simp [interruption, hfailure, warning, hkind, Option.filter, Outcome.after]

/-- The setup runs at the first use. -/
theorem serve_new (setup : List SetupStep) (first : Use) (rest : List Use) :
    let own := completed setup
    let outcomes := serve { setup } (first :: rest)
    ready = reentering ∧
      outcomes.map (·.trace) =
        (.setup :: readings [] own ++ warning (failure setup)) :: rest.map (fun _ => []) ∧
      match interruption setup with
      | none =>
        outcomes.map (·.result) = (answers own (first :: rest)).map .ok ∧
          ∀ name, outcomes.map (·.state.get? name) =
            (histories own (first :: rest)).map (latest? · name)
      | some fault =>
        outcomes.map (·.result) = .error fault :: (answers own rest).map .ok ∧
          ∀ name, outcomes.map (·.state.get? name) =
            (own :: histories own rest).map (latest? · name) := by
  intro own outcomes
  obtain ⟨r', hready, hfollows⟩ := ready_new setup
  cases hend : interruption setup with
  | none =>
    rw [hend] at hready
    obtain ⟨r'', hact, hlater⟩ := act_of_ready hready hfollows first
    obtain ⟨hresults, htraces, hstates⟩ := hlater.serve rest
    simp only [outcomes, serve, List.map_cons, hact, answers, histories]
    refine ⟨ready_eq_reentering, congrArg _ htraces, congrArg _ hresults, fun name => ?_⟩
    rw [hstates, hlater.get?]
  | some fault =>
    rw [hend] at hready
    have hact := act_of_not_ready hready first
    obtain ⟨hresults, htraces, hstates⟩ := hfollows.serve rest
    simp only [outcomes, serve, List.map_cons, hact]
    refine ⟨ready_eq_reentering, congrArg _ htraces, congrArg _ hresults, fun name => ?_⟩
    rw [hstates, hfollows.get?]

example :
    let setup := [.insert "bench" 9600, .fails (.outside .interrupt ""), .insert "bench" 19200]
    (serve { setup } [.insert "bench" 1, .find "bench"]).map (·.result) =
      [.error (.outside .interrupt ""), .ok (some 9600)] := rfl

end MoteLink.Registry
