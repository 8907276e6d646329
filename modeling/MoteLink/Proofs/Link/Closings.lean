import MoteLink.Proofs.Link.Connecting
import MoteLink.Proofs.Reader.Deeds

/-! The closes behind each dial of a run. A connection that was opened is closed exactly once, and
before the next dial, whatever faults come up and whatever listeners do. Main statement:
`run_closes_once`. -/

namespace MoteLink

namespace Trace

/-- For each dial, how often a connection is closed before the next one. -/
def closings : Trace → List Nat
  | [] => []
  | e :: rest =>
    if e.isDial then (rest.takeWhile (!·.isDial)).count .close :: closings rest
    else closings rest

theorem closings_append_of_dials {t : Trace} (h : t.dials = 0) (u : Trace) :
    closings (t ++ u) = closings u := by
  induction t with
  | nil => rfl
  | cons e rest ih =>
    have hnone := List.countP_eq_zero.1 h
    have hrest : dials rest = 0 :=
      List.countP_eq_zero.2 fun e he => hnone e (List.mem_cons_of_mem _ he)
    rw [List.cons_append, closings, if_neg (hnone e (List.mem_cons_self ..)), ih hrest]

theorem closings_dial {e : Event} (dial : e.isDial) {t u : Trace} (between : t.dials = 0)
    (next : ∀ e ∈ u.head?, e.isDial) :
    closings (e :: (t ++ u)) = t.count .close :: closings u := by
  have hbetween : ∀ e ∈ t, (!e.isDial) = true := by
    simpa using List.countP_eq_zero.1 between
  have hstop : u.takeWhile (!·.isDial) = [] := by
    cases u with
    | nil => rfl
    | cons e' rest => simp [next e' rfl]
  rw [closings, if_pos dial, closings_append_of_dials between,
    List.takeWhile_append_of_pos hbetween, hstop, List.append_nil]

end Trace

namespace Link

/-- The entry of those dialled in a trace that was accepted last. -/
def accepted? (l : Link) (t : Trace) : Option Dial :=
  ((l.recording.take t.dials).filter Dial.isAccepted).getLast?

/-- One dial and all up to the next. `u` is what happens behind the dial. -/
structure Visited (l : Link) (u : Trace) (l' : Link) : Prop where
  endpoint : l'.endpoint = l.endpoint
  recording : l'.recording = l.recording.tail
  dials : u.dials = 0
  opened : ∀ d ∈ l.recording.head?, d.opens l.endpoint →
    u.count .close = 1 ∧ l'.connection = none
  same : (∀ d ∈ l.recording.head?, d.isAccepted = false) → l'.connection = l.connection

/-- Dial after dial, with every connection that was opened closed once before the next. -/
structure Settled (l : Link) (t : Trace) (l' : Link) : Prop where
  first : ∀ e ∈ t.head?, e.isDial
  recording : l'.recording = l.recording.drop t.dials
  once : ∀ entry ∈ l.recording.zip t.closings, entry.1.opens l.endpoint → entry.2 = 1
  unheld : ∀ d ∈ l.accepted? t, d.opens l.endpoint → l'.connection = none
  same : l.accepted? t = none → l'.connection = l.connection

theorem Settled.refl (l : Link) : Settled l [] l :=
  ⟨nofun, rfl, by simp [Trace.closings], by simp [accepted?, Trace.dials], fun _ => rfl⟩

theorem Visited.settled {l l' l'' : Link} {u v w : Trace} (h : Visited l u l') (still : v.Still)
    (rest : Settled l' w l'') : Settled l (dialling l.endpoint :: (u ++ v ++ w)) l'' := by
  have hdial : (dialling l.endpoint).isDial := isDial_dialling l.endpoint
  have hbetween : (u ++ v).dials = 0 := by rw [Trace.dials_append, h.dials, still.dials]
  have hcloses : (u ++ v).count .close = u.count .close := by
    rw [List.count_append, List.count_eq_zero.2 fun hm => (still _ hm).2 rfl, Nat.add_zero]
  have hdials : Trace.dials (dialling l.endpoint :: (u ++ v ++ w)) = w.dials + 1 := by
    rw [Trace.dials_dial hdial, Trace.dials_append, hbetween, Nat.zero_add]
  have hclosings := Trace.closings_dial hdial hbetween rest.first
  rw [hcloses] at hclosings
  have hlast : l.accepted? (dialling l.endpoint :: (u ++ v ++ w)) =
      (l'.accepted? w).or (l.recording.head?.filter Dial.isAccepted) := by
    rw [accepted?, accepted?, hdials, h.recording]
    cases l.recording with
    | nil => simp
    | cons d later =>
      rw [List.take_succ_cons, List.tail_cons, List.head?_cons]
      cases hd : d.isAccepted with
      | true => rw [List.filter_cons_of_pos hd, Option.filter_some_pos hd, Option.or_some,
          List.getLast?_cons]
      | false => rw [List.filter_cons_of_neg (by simp [hd]), Option.filter_some_neg (by simp [hd]),
          Option.or_none]
  refine ⟨fun e he => Option.some.inj he ▸ hdial, ?_, ?_, ?_, ?_⟩
  · rw [rest.recording, h.recording, hdials, List.drop_tail]
  · rw [hclosings]
    intro entry hentry
    cases hrecording : l.recording with
    | nil => simp [hrecording] at hentry
    | cons d later =>
      rw [hrecording, List.zip_cons_cons] at hentry
      rcases List.mem_cons.1 hentry with rfl | hlater
      · exact fun hopens => (h.opened d (by rw [hrecording]; rfl) hopens).1
      · have honce := rest.once entry
        rw [h.recording, hrecording, h.endpoint] at honce
        exact honce hlater
  · rw [hlast]
    intro d hd hopens
    cases hlater : l'.accepted? w with
    | some d' =>
      rw [hlater] at hd
      obtain rfl : d' = d := Option.some.inj hd
      exact rest.unheld d' hlater (h.endpoint ▸ hopens)
    | none =>
      -- no later dial was accepted, so what the first one left is what is held
      rw [hlater, Option.none_or] at hd
      have hhead := (Option.mem_filter_iff.1 hd).1
      rw [rest.same hlater]
      exact (h.opened d hhead hopens).2
  · rw [hlast]
    intro hnone
    obtain ⟨hlater, hhead⟩ := Option.or_eq_none_iff.1 hnone
    rw [rest.same hlater]
    exact h.same fun d hd => by simpa [Option.mem_def.1 hd] using hhead

end Link

namespace Reader
open Link
variable {ι ν : Type} {r : Reader Link ι ν} {o : Outcome (Reader Link ι ν) Unit}

theorem Deeds.handled (h : Deeds r o) : Handled r.source o.trace o.state.source := by
  induction h with
  | rest | fail | remember | register => exact .refl _
  | @remark r event remark =>
    have hstill : event.isDial = false ∧ event ≠ .close := by
      cases event <;> simp_all [Event.isRemark, Event.isDial]
    exact .still (.single hstill.1 hstill.2) rfl rfl rfl (Nat.le_refl _)
  | @stop r => exact handling_requestStop r.source
  | next first second ih ih' => exact ih.trans ih'
  | caught first second ih ih' => exact ih.trans ih'

section
variable {P : ν → Prop} {hear : Hearing Link ι ν} (gentle : Gentle P hear)
include gentle

theorem Pumps.handled (h : Pumps hear r o) (holds : P r.audience) :
    Handled r.source o.trace o.state.source := by
  have hread {r r' : Reader Link ι ν} {result : Except Fault Bytes} {t : Trace}
      (read : onSource PacketFeed.read r = ⟨result, r', t⟩) (holds : P r.audience) :
      Handled r.source t r'.source ∧ P r'.audience := by
    have hlink := carries_handling.read r.source
    rw [show Link.read r.source = ⟨result, r'.source, t⟩ from source_of_onSource read] at hlink
    exact ⟨hlink, by rw [others_of_onSource read]; exact holds⟩
  have hdeliver {r r' : Reader Link ι ν} {packet : Bytes} {result : Except Fault Unit} {t : Trace}
      (heard : deliver hear packet r = ⟨result, r', t⟩) (holds : P r.audience) :
      Handled r.source t r'.source ∧ P r'.audience := by
    obtain ⟨hdeeds, hstays⟩ := gentle.deliver packet holds
    rw [heard] at hdeeds hstays
    exact ⟨hdeeds.handled, hstays⟩
  induction h with
  | stopped stopping => exact .refl _
  | unread going read => exact (hread read holds).1
  | unheard going read heard =>
    obtain ⟨hlink, hstays⟩ := hread read holds
    exact hlink.trans (hdeliver heard hstays).1
  | heard going read heard rest ih =>
    obtain ⟨hlink, hstays⟩ := hread read holds
    obtain ⟨hheard, hstays'⟩ := hdeliver heard hstays
    exact (hlink.trans hheard).trans (ih hstays')

theorem Visits.visited (h : Visits hear r o) (holds : P r.audience) :
    ∃ u, o.trace = dialling r.source.endpoint :: u ∧ Visited r.source u o.state.source := by
  obtain ⟨result, l', t, hconnect, hconnected⟩ := connect_connected r.source
  cases h with
  | @shut r' fault t' connect =>
    obtain ⟨rfl, rfl, rfl⟩ := Outcome.mk.inj ((source_of_onSource connect).symm.trans hconnect)
    refine ⟨t, rfl, hconnected.endpoint, hconnected.recording, hconnected.dials, ?_,
      hconnected.same⟩
    exact fun d hd hopens => by cases hconnected.opens_iff.2 ⟨d, hd, hopens⟩
  | @opened r' r'' t' u closed o connect pumps close =>
    obtain ⟨rfl, rfl, rfl⟩ := Outcome.mk.inj ((source_of_onSource connect).symm.trans hconnect)
    have hpumps := pumps.handled gentle (by rw [others_of_onSource connect]; exact holds)
    have hlink : Link.close o.state.source = ⟨closed, r''.source, u⟩ := source_of_onSource close
    have hclose := handled_close o.state.source
    rw [hlink] at hclose
    obtain ⟨w, hleft⟩ := close_unheld o.state.source
    have hunheld : r''.source.connection = none := by
      rw [(Outcome.mk.inj (hlink.symm.trans hleft)).2.1]
    have hreading := hpumps.trans hclose
    obtain ⟨hnone, hone⟩ := hconnected.opened rfl
    refine ⟨t ++ (o.trace ++ u), rfl, hreading.endpoint.trans hconnected.endpoint,
      hreading.recording.trans hconnected.recording, ?_, fun _ _ _ => ⟨?_, hunheld⟩, fun h => ?_⟩
    · rw [Trace.dials_append, hconnected.dials, hreading.dials]
    -- opening has closed nothing, and the one connection it left is no longer held
    · have hcloses : (o.trace ++ u).count .close + r''.source.held = r'.source.held :=
        hreading.closes
      have hheld : r''.source.held = 0 := by rw [Link.held, hunheld]; rfl
      rw [List.count_append]
      omega
    · obtain ⟨d, hd, hopens⟩ := hconnected.opens_iff.1 rfl
      have howned := Dial.owned_of_opens hopens
      rw [Dial.owned, h d hd] at howned
      cases howned

theorem Runs.settled {visits : List (Outcome (Reader Link ι ν) Unit)} (h : Runs hear r visits o)
    (holds : P r.audience) : Settled r.source o.trace o.state.source := by
  have hvisit {r : Reader Link ι ν} {o : Outcome (Reader Link ι ν) Unit} (visit : Visits hear r o)
      (holds : P r.audience) {v : Trace} (still : v.Still) {w : Trace} {l : Link}
      (rest : P o.state.audience → Settled o.state.source w l) :
      Settled r.source (o.trace ++ v ++ w) l := by
    have hstays : P o.state.audience := (visit.allows (suits_polite gentle) holds).1.holds
    obtain ⟨u, htrace, hvisited⟩ := visit.visited gentle holds
    rw [htrace]
    exact hvisited.settled still (rest hstays)
  have hlast {r : Reader Link ι ν} {o : Outcome (Reader Link ι ν) Unit} (visit : Visits hear r o)
      (holds : P r.audience) {v : Trace} (still : v.Still) :
      Settled r.source (o.trace ++ v) o.state.source := by
    have hrest := hvisit visit holds still fun _ => .refl o.state.source
    rwa [List.append_nil] at hrest
  induction h with
  | stopped stopping => exact .refl _
  | again going visit ok rest ih =>
    have hrest := hvisit visit holds .nil ih
    rwa [List.append_nil] at hrest
  | interrupted going visit failed interrupt =>
    have hrest := hlast visit holds .nil
    rwa [List.append_nil] at hrest
  | released going visit failed link stopping =>
    have hrest := hlast visit holds .nil
    rwa [List.append_nil] at hrest
  | revived going visit failed link wanted revive rest ih =>
    exact hvisit visit holds (v := [.notice _, .sleep _])
      (.append (s := [.notice _]) (.single rfl nofun) (.single rfl nofun)) ih
  | kept going visit failed interrupt lasting =>
    exact hlast visit holds (.single rfl nofun)

/-- Whether a link opens depends on the entry of the recording alone that the dial takes. A run
closes each connection that it opened exactly once, and does so before the next dial. What it holds
at its end, if anything, is what a link kept that accepted and did not open. -/
theorem run_closes_once (holds : P r.audience) :
    (∀ l : Link, (connect l).result = .ok () ↔ ∃ d ∈ l.recording.head?, d.opens l.endpoint) ∧
    (∃ visits, Runs hear r visits (run hear r)) ∧
    let o := run hear r
    let e := r.source.endpoint
    o.state.source.recording = r.source.recording.drop o.trace.dials ∧
    (∀ entry ∈ r.source.recording.zip o.trace.closings, entry.1.opens e → entry.2 = 1) ∧
    (∀ d ∈ r.source.accepted? o.trace, d.opens e → o.state.source.connection = none) ∧
    (r.source.accepted? o.trace = none →
      o.state.source.connection = r.source.connection) := by
  obtain ⟨visits, hruns⟩ := run_runs (suits_polite gentle) holds
  have hsettled := hruns.settled gentle holds
  refine ⟨fun l => ?_, ⟨visits, hruns⟩, hsettled.recording, hsettled.once, hsettled.unheld,
    hsettled.same⟩
  obtain ⟨result, l', t, hconnect, hconnected⟩ := connect_connected l
  rw [hconnect]
  exact hconnected.opens_iff

end

theorem run_closes_once_forwarder :
    let r : Scripted Link :=
      { source :=
          { endpoint := .forwarder "h" 1
            recording := [
              .refused (.outside .timeout "slow"),
              .accepted [.chunk [0x55, 0x20, 1], .chunk [9], .fails (.outside .reset "gone")],
              .accepted [.chunk [0x55]],
              .accepted [.chunk [0x55, 0x20, 1, 7, 1], .stops (.outside .interrupt "")]] }
        revive := true
        listeners := ["a", "a"]
        audience := [("a", [.step (.add "b"), .rest, .step (.remove "a")])] }
    let o := run (hear 3) r
    (∀ entry ∈ r.source.recording.zip o.trace.closings,
        entry.1.opens r.source.endpoint → entry.2 = 1) ∧
      o.state.stopping ∧ o.trace.closings = [0, 1, 0, 1] ∧
      o.state.source.connection = none := by
  intro r o
  have hmild : r.audience.Each IsMild := by
    simp [r, Scripts.Each, IsMild, Step.IsPlain]
  obtain ⟨-, -, -, honce, hunheld, -⟩ := run_closes_once (gentle_hear 3) hmild
  have hlast : r.source.accepted? o.trace =
      some (.accepted [.chunk [0x55, 0x20, 1, 7, 1], .stops (.outside .interrupt "")]) := by
    decide +kernel
  refine ⟨honce, ?_, ?_, hunheld _ hlast (by decide)⟩
  · decide +kernel
  · decide +kernel

end Reader
end MoteLink
