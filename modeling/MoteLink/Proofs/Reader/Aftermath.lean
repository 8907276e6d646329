import MoteLink.Proofs.Reader.Stays

/-! What a run makes of a source that was opened and then closed because of a fault. It goes by the
kind of the fault alone, wherever that came from, and by that of closing if closing faults too. So a
listener that faults as a link does has the source opened again, and closing can hide any fault. -/

namespace MoteLink.Reader

section
variable {ι ν : Type} {hear : Hearing Playback ι ν}
  (wanes : ∀ listener packet r, (hear listener packet r).state.remaining ≤ r.remaining)
  {r s : Reader Playback ι ν} {t : Trace} {packets : List Bytes} {halt : Halt}
  {o : Outcome (Reader Playback ι ν) Unit}
include wanes

theorem run_of_broken {closed : Except Fault Unit} {fault : Fault} (came : ComesTo hear r t s)
    (going : s.stopping = false) (stays : Stays hear s (some ⟨packets, halt, closed⟩) o)
    (broken : (closed.bind fun _ => halt.result) = .error fault)
    (exception : fault.isInterrupt = false) :
    run hear r =
      if fault.isLink && o.state.stopping then ⟨.ok (), o.state, t ++ o.trace⟩
      else if fault.isLink && o.state.revive then
        (run hear o.state).after
          (t ++ o.trace ++ [.notice (.died o.state.describe fault), .sleep pause])
      else ⟨.ok (), { o.state with kept := some fault },
        t ++ o.trace ++ [.notice (.died o.state.describe fault)]⟩ := by
  have hwanes : ∀ listener packet, waning.Keeps (hear listener packet) :=
    fun listener packet => keeps_waning (wanes listener packet)
  have hresult : o.result = .error fault := by
    cases stays with
    | opened connect reads close => exact broken
  rw [run_of_comesTo hwanes came, run_of_fault hwanes going stays.visits hresult,
    if_neg (by simp [exception])]
  split_ifs
  · rfl
  · rw [Outcome.after_after, List.append_assoc]
  · rw [Outcome.after, List.append_assoc]

theorem run_opens (going : r.stopping = false) : ∃ u, (run hear r).trace = .openSource :: u := by
  have hwanes : ∀ listener packet, waning.Keeps (hear listener packet) :=
    fun listener packet => keeps_waning (wanes listener packet)
  have hvisit := session_visits (suits_waning hwanes) (r := r) trivial
  obtain ⟨-, u, htrace, -⟩ := hvisit.allows (suits_waning hwanes) trivial
  have hopening : (PacketFeed.connect r.source).trace = [.openSource] :=
    Playback.connect_trace r.source
  rw [hopening] at htrace
  cases hresult : (session hear r).result with
  | ok _ => exact ⟨_, by rw [run_of_ok hwanes going hvisit hresult, Outcome.after, htrace]; rfl⟩
  | error fault =>
    rw [run_of_fault hwanes going hvisit hresult]
    split_ifs
    · exact ⟨_, htrace⟩
    · exact ⟨_, htrace⟩
    · exact ⟨_, by rw [Outcome.after, htrace]; rfl⟩
    · exact ⟨_, by rw [htrace]; rfl⟩

/-- A listener's fault ends the run and is kept, unless it is of the kind that links have: then a
reader that revives its source pauses and opens it again. -/
theorem run_of_unheard {fault : Fault} (came : ComesTo hear r t s) (going : s.stopping = false)
    (stays : Stays hear s (some ⟨packets, .unheard fault, .ok ()⟩) o)
    (exception : fault.isInterrupt = false) (wanted : o.state.stopping = false) :
    let died : Event := .notice (.died o.state.describe fault)
    (fault.isLink = false ∨ o.state.revive = false →
      run hear r =
        ⟨.ok (), { o.state with kept := some fault }, t ++ o.trace ++ [died]⟩) ∧
    (fault.isLink → o.state.revive →
      run hear r = (run hear o.state).after (t ++ o.trace ++ [died, .sleep pause]) ∧
        ∃ u, (run hear r).trace = t ++ o.trace ++ [died, .sleep pause] ++ .openSource :: u) := by
  intro died
  have hrun := run_of_broken wanes came going stays rfl exception
  rw [wanted, Bool.and_false, if_neg Bool.false_ne_true] at hrun
  refine ⟨fun hends => ?_, fun hlink hrevive => ?_⟩
  · rw [hrun, if_neg]
    rcases hends with hends | hends <;> simp [hends]
  · rw [hlink, hrevive, Bool.and_true, if_pos rfl] at hrun
    obtain ⟨u, hopens⟩ := run_opens wanes wanted
    exact ⟨hrun, u, by rw [hrun, Outcome.after, hopens]⟩

end

theorem run_of_unheard_full_disk :
    let r : Scripted Playback :=
      { source :=
          { title := "bench"
            sessions := [
              { openFault := some (.outside .reset "no") },
              { items := [.packet [1], .packet [2]] }] }
        revive := true
        listeners := ["a"]
        audience := [("a", [.rest, .fails .diskFull])] }
    ∃ u, (run (hear 2) r).trace =
      [.openSource, .notice (.died "bench" (.outside .reset "no")), .sleep 2, .openSource,
        .heard "a" [1], .heard "a" [2], .close, .notice (.died "bench" .diskFull), .sleep 2,
        .openSource] ++ u := by
  intro r
  have hwanes : ∀ listener packet (r : Scripted Playback),
      (hear 2 listener packet r).state.remaining ≤ r.remaining :=
    fun listener packet r => (waning_hear 2 listener packet r trivial).leads
  have hcame : ComesTo (hear 2) r _ _ := .revived rfl (.shut rfl) rfl rfl rfl rfl .here
  let s := (onSource PacketFeed.connect r).state
  have hreads : Reads (hear 2) (onSource PacketFeed.connect s).state [[1], [2]]
      (.unheard .diskFull) _ _ := .heard rfl rfl rfl (.unheard rfl rfl rfl)
  have hstays : Stays (hear 2) s _ _ := .opened rfl hreads rfl
  obtain ⟨-, hrevived⟩ := run_of_unheard hwanes hcame rfl hstays rfl rfl
  obtain ⟨-, u, htrace⟩ := hrevived rfl rfl
  exact ⟨u, htrace⟩

/-- The listener faults since its own output does, the source is sound, and yet it is the source
that is opened again. What is kept at the end is not the listener's fault. -/
theorem unheard_revived :
    let r : Scripted Playback :=
      { source := { title := "script@test", sessions := [{ items := [.packet [1]] }] }
        revive := true
        listeners := ["a"]
        audience := [("a", [.fails (.outside .system "disk full")])] }
    let o := performScripted .run r
    o.trace =
        [.openSource, .heard "a" [1], .close,
          .notice (.died "script@test" (.outside .system "disk full")), .sleep 2, .openSource,
          .notice (.died "script@test" .exhausted)] ∧
      o.state.kept = some .exhausted := by
  decide +kernel

section
variable {ι ν : Type} {hear : Hearing Playback ι ν}
  (wanes : ∀ listener packet r, (hear listener packet r).state.remaining ≤ r.remaining)
  {r s : Reader Playback ι ν} {t : Trace} {packets : List Bytes} {halt : Halt}
  {o : Outcome (Reader Playback ι ν) Unit}
include wanes

/-- A fault that is not of the kind that links have ends the run and is kept if closing goes well.
If closing faults too, only that fault counts: it is kept, or answered as a fault of the link. -/
theorem run_of_fatal {closed : Except Fault Unit} {fault : Fault} (came : ComesTo hear r t s)
    (going : s.stopping = false) (stays : Stays hear s (some ⟨packets, halt, closed⟩) o)
    (broken : halt.result = .error fault) (fatal : fault.isLink = false)
    (exception : fault.isInterrupt = false) :
    (closed = .ok () →
      run hear r = ⟨.ok (), { o.state with kept := some fault },
        t ++ o.trace ++ [.notice (.died o.state.describe fault)]⟩) ∧
    ∀ cleanup, closed = .error cleanup → cleanup.isInterrupt = false →
      run hear r =
        if cleanup.isLink && o.state.stopping then ⟨.ok (), o.state, t ++ o.trace⟩
        else if cleanup.isLink && o.state.revive then
          (run hear o.state).after
            (t ++ o.trace ++ [.notice (.died o.state.describe cleanup), .sleep pause])
        else ⟨.ok (), { o.state with kept := some cleanup },
          t ++ o.trace ++ [.notice (.died o.state.describe cleanup)]⟩ := by
  refine ⟨fun hclosed => ?_, fun cleanup hclosed hexception => ?_⟩
  · subst hclosed
    have hrun := run_of_broken wanes came going stays broken exception
    rwa [fatal, Bool.false_and, if_neg Bool.false_ne_true, Bool.false_and,
      if_neg Bool.false_ne_true] at hrun
  · subst hclosed
    exact run_of_broken wanes came going stays rfl hexception

end

theorem run_of_fatal_stuck :
    let r : Scripted Playback :=
      { source :=
          { title := "bench"
            sessions := [
              { items := [.packet [1], .fails (.outside .state "torn")]
                closeFault := some (.outside .system "stuck") },
              { items := [.packet [2]] }] }
        revive := true
        listeners := ["a"]
        audience := [("a", [.rest])] }
    ∃ u, (run (hear 1) r).trace =
      [.openSource, .heard "a" [1], .close,
        .notice (.died "bench" (.outside .system "stuck")), .sleep 2] ++ u := by
  intro r
  have hwanes : ∀ listener packet (r : Scripted Playback),
      (hear 1 listener packet r).state.remaining ≤ r.remaining :=
    fun listener packet r => (waning_hear 1 listener packet r trivial).leads
  have hreads : Reads (hear 1) (onSource PacketFeed.connect r).state [[1]]
      (.unread (.outside .state "torn")) _ _ := .heard rfl rfl rfl (.unread rfl rfl)
  have hstays : Stays (hear 1) r (some ⟨_, _, .error (.outside .system "stuck")⟩) _ :=
    .opened rfl hreads rfl
  obtain ⟨-, hmasked⟩ := run_of_fatal hwanes .here rfl hstays rfl rfl rfl
  exact ⟨_, congrArg Outcome.trace (hmasked _ rfl rfl)⟩

/-- A listener faults for good, and closing the source faults as a link does. The listener's fault
is neither reported nor kept, and the source is opened again. -/
theorem fatal_masked :
    let r : Scripted Playback :=
      { source :=
          { title := "script@test"
            sessions := [
              { items := [.packet [1]], closeFault := some (.outside .system "close failed") }] }
        revive := true
        listeners := ["a"]
        audience := [("a", [.fails (.outside .value "bad")])] }
    let o := performScripted .run r
    o.trace =
        [.openSource, .heard "a" [1], .close,
          .notice (.died "script@test" (.outside .system "close failed")), .sleep 2, .openSource,
          .notice (.died "script@test" .exhausted)] ∧
      o.state.kept = some .exhausted := by
  decide +kernel

end MoteLink.Reader
