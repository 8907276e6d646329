import MoteLink.Proofs.Reader.Playback

/-! What a run of a reader over recorded sessions adds up to: how often it opened its source, paused
and reported a fault, and which fault it kept. -/

namespace MoteLink

namespace Event

def isSleep : Event → Bool
  | .sleep _ => true
  | _ => false

def isDeath : Event → Bool
  | .notice (.died ..) => true
  | _ => false

end Event

namespace Trace

def opens (t : Trace) : Nat := t.count .openSource

def sleeps (t : Trace) : Nat := t.countP Event.isSleep

def deaths (t : Trace) : Nat := t.countP Event.isDeath

theorem opens_append (s t : Trace) : (s ++ t).opens = s.opens + t.opens := List.count_append

theorem sleeps_append (s t : Trace) : (s ++ t).sleeps = s.sleeps + t.sleeps := List.countP_append

theorem deaths_append (s t : Trace) : (s ++ t).deaths = s.deaths + t.deaths := List.countP_append

end Trace

namespace Reader
open Playback

section
variable {hear : Hearing Playback String (Scripts Step)} {r : Scripted Playback}
  {o : Outcome (Scripted Playback) Unit}

section
variable (suits : Suits (upon unbroken) hear)
include suits

theorem Visits.tally (h : Visits hear r o) (holds : (upon unbroken).holds r) :
    o.trace.opens = 1 ∧ o.trace.sleeps = 0 ∧ o.trace.deaths = 0 := by
  obtain ⟨-, t, htrace, hquiet⟩ := h.allows suits holds
  have hopening : (PacketFeed.connect r.source).trace = [.openSource] := connect_trace r.source
  have hnone (p : Event → Bool) (heard : ∀ name packet, p (.heard name packet) = false)
      (close : p .close = false) : t.countP p = 0 := by
    refine List.countP_eq_zero.2 fun e hm => ?_
    rcases hquiet e hm with ⟨name, packet, rfl⟩ | rfl
    · simp [heard]
    · simp [close]
  have hopens : t.opens = 0 := hnone (· == .openSource) (fun _ _ => rfl) rfl
  have hsleeps : t.sleeps = 0 := hnone Event.isSleep (fun _ _ => rfl) rfl
  have hdeaths : t.deaths = 0 := hnone Event.isDeath (fun _ _ => rfl) rfl
  rw [htrace, hopening, Trace.opens_append, Trace.sleeps_append, Trace.deaths_append, hopens,
    hsleeps, hdeaths]
  exact ⟨rfl, rfl, rfl⟩

theorem Visits.stopping (h : Visits hear r o) (holds : (upon unbroken).holds r)
    (ok : o.result = .ok ()) : o.state.stopping := by
  have hconnect := suits.connect r holds
  cases h with
  | shut connect => exact nomatch ok
  | @opened r' r'' t u closed o connect pumps close =>
    rw [connect] at hconnect
    have hread := pumps.allows suits hconnect.holds
    have hclose := close ▸ suits.close o.state hread.holds
    cases closed with
    | error fault => exact nomatch ok
    | ok _ => exact hclose.leads.source.2 (pumps.stopping ok)

end

/-- A run's account. `visits` are its openings of the source and what came of them, `ending` is the
fault that it keeps, if it keeps one. -/
structure Account (r : Scripted Playback) (visits : List (Outcome (Scripted Playback) Unit))
    (ending : Option Fault) (o : Outcome (Scripted Playback) Unit) : Prop where
  finished : o.result = .ok ()
  opens : o.trace.opens = o.trace.sleeps + 1
  length : visits.length = o.trace.opens
  deaths : o.trace.deaths = o.trace.sleeps + if ending.isSome then 1 else 0
  sleepless : r.revive = false → o.trace.sleeps = 0
  retried : ∀ visit ∈ visits.dropLast,
    visit.state.stopping = false ∧ ∃ fault, visit.result = .error fault ∧ fault.isLink
  kept : o.state.kept = ending.or r.kept
  last : ∀ fault, ending = some fault →
    (∃ visit, visits.getLast? = some visit ∧ visit.result = .error fault) ∧
      (fault.isLink → r.revive = false ∧ o.state.stopping = false)
  stopped : ending = none → o.state.stopping

section
variable (suits : Suits (upon unbroken) hear) (holds : (upon unbroken).holds r)
include suits holds

/-- The account of a run that its first visit ended, with `u` still to come. -/
theorem Visits.account {o' : Outcome (Scripted Playback) Unit} {u : Trace} {ending : Option Fault}
    (h : Visits hear r o) (finished : o'.result = .ok ()) (trace : o'.trace = o.trace ++ u)
    (awake : u.opens = 0 ∧ u.sleeps = 0) (deaths : u.deaths = if ending.isSome then 1 else 0)
    (kept : o'.state.kept = ending.or r.kept)
    (last : ∀ fault, ending = some fault → o.result = .error fault ∧
      (fault.isLink → r.revive = false ∧ o'.state.stopping = false))
    (stopped : ending = none → o'.state.stopping) : Account r [o] ending o' := by
  obtain ⟨hopens, hsleeps, hdeaths⟩ := h.tally suits holds
  have hone : o'.trace.opens = 1 := by rw [trace, Trace.opens_append, hopens, awake.1]
  have hnone : o'.trace.sleeps = 0 := by rw [trace, Trace.sleeps_append, hsleeps, awake.2]
  refine ⟨finished, by rw [hone, hnone], hone.symm, ?_, fun _ => hnone,
    fun _ hm => absurd hm List.not_mem_nil, kept, fun fault hfault => ?_, stopped⟩
  · rw [hnone, trace, Trace.deaths_append, hdeaths, deaths]
  · exact ⟨⟨o, rfl, (last fault hfault).1⟩, (last fault hfault).2⟩

/-- The account of a run that paused after a visit and then went on. -/
theorem Visits.account_revived {o' : Outcome (Scripted Playback) Unit} {fault : Fault}
    {visits : List (Outcome (Scripted Playback) Unit)} {ending : Option Fault}
    (h : Visits hear r o) (failed : o.result = .error fault) (link : fault.isLink)
    (wanted : o.state.stopping = false) (revive : o.state.revive)
    (rest : Account o.state visits ending o') :
    Account r (o :: visits) ending
      (o'.after (o.trace ++ [.notice (.died o.state.describe fault), .sleep pause])) := by
  obtain ⟨hopens, hsleeps, hdeaths⟩ := h.tally suits holds
  obtain ⟨hrevive, hkept, -, -⟩ := (h.allows suits holds).1.leads
  generalize hpause : [Event.notice (.died o.state.describe fault), .sleep pause] = pair
  have hpair : Trace.opens pair = 0 ∧ Trace.sleeps pair = 1 ∧ Trace.deaths pair = 1 := by
    rw [← hpause]
    exact ⟨rfl, rfl, rfl⟩
  have htrace : (o'.after (o.trace ++ pair)).trace = o.trace ++ (pair ++ o'.trace) :=
    List.append_assoc ..
  have hopened : (o'.after (o.trace ++ pair)).trace.opens = o'.trace.opens + 1 := by
    rw [htrace, Trace.opens_append, Trace.opens_append, hopens, hpair.1]
    omega
  have hslept : (o'.after (o.trace ++ pair)).trace.sleeps = o'.trace.sleeps + 1 := by
    rw [htrace, Trace.sleeps_append, Trace.sleeps_append, hsleeps, hpair.2.1]
    omega
  have hdied : (o'.after (o.trace ++ pair)).trace.deaths = o'.trace.deaths + 1 := by
    rw [htrace, Trace.deaths_append, Trace.deaths_append, hdeaths, hpair.2.2]
    omega
  -- the rest opened the source at least once, so its last visit is the last of all
  have hne : visits ≠ [] := by
    intro hnil
    have hlength := rest.length
    rw [hnil, rest.opens] at hlength
    exact nomatch hlength
  constructor
  case finished => exact rest.finished
  case opens => rw [hopened, hslept, rest.opens]
  case length => rw [hopened, List.length_cons, rest.length]
  case deaths =>
    rw [hdied, hslept, rest.deaths]
    omega
  case sleepless =>
    intro hfixed
    rw [hrevive, hfixed] at revive
    exact nomatch revive
  case retried =>
    intro visit hm
    rw [List.dropLast_cons_of_ne_nil hne] at hm
    rcases List.mem_cons.1 hm with rfl | hm
    · exact ⟨wanted, fault, failed, link⟩
    · exact rest.retried visit hm
  case kept => rw [← hkept]; exact rest.kept
  case last =>
    intro f hf
    obtain ⟨⟨visit, hlast, hfailed⟩, hlink⟩ := rest.last f hf
    exact ⟨⟨visit, by rw [List.getLast?_cons, hlast]; rfl, hfailed⟩, hrevive ▸ hlink⟩
  case stopped => exact rest.stopped

end

/-- Every run has an account. -/
theorem Runs.account {visits : List (Outcome (Scripted Playback) Unit)}
    (suits : Suits (upon unbroken) hear) (h : Runs hear r visits o)
    (holds : (upon unbroken).holds r) (going : r.stopping = false) :
    ∃ ending, Account r visits ending o := by
  induction h with
  | stopped stopping => simp [stopping] at going
  | @again r o visits o' _ visit ok rest ih =>
    have hleads := (visit.allows suits holds).1.leads
    have hstopping := visit.stopping suits holds ok
    -- a visit that ends without a fault was stopped, so it is the last one
    obtain ⟨rfl, rfl⟩ := rest.of_stopping hstopping
    exact ⟨none, visit.account suits holds rfl rfl ⟨rfl, rfl⟩ rfl hleads.kept nofun
      fun _ => hstopping⟩
  | @interrupted r o fault _ visit failed interrupt =>
    have hfault : fault.isInterrupt = false ∨ fault.isInterrupt = false :=
      (visit.allows suits holds).1.faults fault failed
    simp [interrupt] at hfault
  | @released r o fault _ visit failed link stopping =>
    have hleads := (visit.allows suits holds).1.leads
    exact ⟨none, visit.account suits holds rfl (List.append_nil _).symm ⟨rfl, rfl⟩ rfl hleads.kept
      nofun fun _ => stopping⟩
  | @revived r o fault visits o' _ visit failed link wanted revive rest ih =>
    have hallows := (visit.allows suits holds).1
    obtain ⟨ending, hrest⟩ := ih hallows.holds wanted
    exact ⟨ending, visit.account_revived suits holds failed link wanted revive hrest⟩
  | @kept r o fault _ visit failed interrupt lasting =>
    have hleads := (visit.allows suits holds).1.leads
    refine ⟨some fault, visit.account suits holds rfl rfl ⟨rfl, rfl⟩ rfl rfl ?_ nofun⟩
    intro fault' hfault
    obtain rfl := Option.some.inj hfault
    refine ⟨failed, fun hlink => ?_⟩
    obtain ⟨hstopping, hrevive⟩ := lasting hlink
    exact ⟨hleads.revive ▸ hrevive, hstopping⟩

end

/-- A run of a reader over recorded sessions that no interrupt is in, with listeners that leave the
loops alone, comes to its end by itself, and whatever the depth to which listeners call each other,
it has an account. -/
theorem run_account (depth : Nat) {r : Scripted Playback} (going : r.stopping = false)
    (tame : r.audience.Each IsTame) (uninterrupted : r.source.Uninterrupted) :
    ∃ visits ending, Runs (hear depth) r visits (run (hear depth) r) ∧
      Account r visits ending (run (hear depth) r) := by
  have hsuits : Suits (upon unbroken) (hear depth) := suits_hear feeds depth
  obtain ⟨visits, hruns⟩ := run_runs hsuits ⟨tame, uninterrupted⟩
  obtain ⟨ending, haccount⟩ := hruns.account hsuits ⟨tame, uninterrupted⟩ going
  exact ⟨visits, ending, hruns, haccount⟩

theorem run_account_failing_listener :
    let r : Scripted Playback :=
      { source :=
          { title := "bench"
            sessions := [
              { openFault := some (.outside .reset "no") },
              { items := [.packet [1], .fails (.outside .timeout "late")] },
              { items := [.packet [2]] }] }
        revive := true
        listeners := ["a", "b"]
        audience := [
          ("a", [.step (.add "c"), .step (.deliver [9])]),
          ("b", [.rest, .fails (.outside .value "bad")])] }
    let o := performScripted .run r
    o.result = .ok () ∧ o.trace.opens = 3 ∧ o.trace.sleeps = 2 ∧ o.trace.deaths = 3 ∧
      o.state.kept = some (.outside .value "bad") := by
  intro r o
  have htame : r.audience.Each IsTame := by
    simp [r, Scripts.Each, IsTame, Step.IsPlain, Fault.isInterrupt]
  have huninterrupted : r.source.Uninterrupted := by
    have hsession : ∀ session ∈ r.source.sessions, session.Uninterrupted := by
      simp only [r, List.forall_mem_cons]
      refine ⟨⟨?_, ?_, ?_⟩, ⟨?_, ?_, ?_⟩, ⟨?_, ?_, ?_⟩, ?_⟩ <;>
        simp [Item.Uninterrupted, Fault.isInterrupt]
    exact ⟨by simp [r], by simp [r], hsession⟩
  obtain ⟨visits, ending, -, haccount⟩ := run_account r.audience.left rfl htame huninterrupted
  rw [← performScripted_run r] at haccount
  have hsleeps : o.trace.sleeps = 2 := by decide +kernel
  have hkept : o.state.kept = some (.outside .value "bad") := by decide +kernel
  have hending : ending = some (.outside .value "bad") := by
    have hor : o.state.kept = ending.or none := haccount.kept
    rw [hkept, Option.or_none] at hor
    exact hor.symm
  have hopens : o.trace.opens = o.trace.sleeps + 1 := haccount.opens
  have hdeaths : o.trace.deaths = o.trace.sleeps + if ending.isSome then 1 else 0 :=
    haccount.deaths
  rw [hending, hsleeps] at hdeaths
  exact ⟨haccount.finished, by rw [hopens, hsleeps], hsleeps, hdeaths, hkept⟩

end Reader
end MoteLink
