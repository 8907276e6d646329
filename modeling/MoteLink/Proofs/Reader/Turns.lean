import MoteLink.Proofs.Reader.Crowd
import MoteLink.Proofs.Reader.Stays

/-! What a reader of recorded sessions does with the packets: every packet read is delivered once
and in order, to those who are listeners when its delivery begins. Main statement:
`run_delivers`. -/

namespace MoteLink

namespace Playback

/-- Nobody hears anything, and a stop once asked for stays so. -/
def unheard : Act.Contract Playback where
  holds _ := True
  leads p p' := p.stopping → p'.stopping
  event e := e.heard? = none
  fault _ := True
  refl _ := id
  trans h h' := h' ∘ h

theorem unheard_close : unheard.Keeps close :=
  .bind (.emit rfl) fun _ => .bind (.look _) fun _ => keeps_failIf fun _ _ => trivial

theorem unheard_read : unheard.Keeps read := by
  refine .bind (.look _) fun items => ?_
  cases items with
  | nil => exact .fail trivial
  | cons item rest =>
    refine .bind (.update fun _ _ => ⟨trivial, id⟩) fun _ => ?_
    cases item with
    | packet data => exact .pure data
    | fails fault => exact .fail trivial
    | stops fault =>
      refine .bind (.bind (.update fun _ _ => ⟨trivial, fun _ => rfl⟩) fun _ => unheard_close) ?_
      exact fun _ => .fail trivial

theorem unheard_connect : unheard.Keeps connect := by
  refine .bind (.emit rfl) fun _ => .bind (.look _) fun sessions => ?_
  cases sessions with
  | nil => exact .fail trivial
  | cons session rest =>
    refine .bind (.update fun _ _ => ⟨trivial, id⟩) fun _ => .bind ?_ fun _ => ?_
    · exact keeps_failIf fun _ _ => trivial
    · exact .update fun _ _ => ⟨trivial, id⟩

theorem take_stops (fault : Fault) (p : Playback) :
    ∃ fault' t, take (.stops fault) p = ⟨.error fault', { p with stopping := true }, t⟩ := by
  cases hclose : p.closeFault <;>
    simp [take, requestStop, close, failIf, Act.run_bind, hclose, Outcome.after]

/-- A read that succeeds takes the packet at the front, and one that faults finds none there. -/
theorem read_front (p : Playback) :
    (read p).state.sessions = p.sessions ∧
      (∀ packet, (read p).result = .ok packet → p.items = .packet packet :: (read p).state.items) ∧
      ∀ fault, (read p).result = .error fault →
        ∀ packet, p.items.head? ≠ some (.packet packet) := by
  cases hitems : p.items with
  | nil =>
    rw [read_nil hitems]
    exact ⟨rfl, nofun, fun _ _ => nofun⟩
  | cons item rest =>
    rw [read_cons hitems]
    cases item with
    | packet data => exact ⟨rfl, fun packet h => by rw [← Except.ok.inj h]; rfl, nofun⟩
    | fails fault => exact ⟨rfl, nofun, fun _ _ => nofun⟩
    | stops fault =>
      obtain ⟨fault', t, htake⟩ := take_stops fault { p with items := rest }
      rw [htake]
      exact ⟨rfl, nofun, fun _ _ => nofun⟩

theorem connect_front (p : Playback) :
    (connect p).state.sessions = p.sessions.tail ∧
      ((connect p).result = .ok () →
        ∃ session ∈ p.sessions.head?, (connect p).state.items = session.items) := by
  cases hsessions : p.sessions with
  | nil =>
    rw [connect_nil hsessions]
    exact ⟨hsessions, nofun⟩
  | cons session later =>
    rw [connect_cons hsessions]
    cases session.openFault with
    | none => exact ⟨rfl, fun _ => ⟨session, rfl, rfl⟩⟩
    | some fault => exact ⟨rfl, nofun⟩

end Playback

namespace Reader

section
variable {start : List String} {depth : Nat} {r s : Scripted Playback} {p : Affairs}

/-- The packets were delivered in turns, each before a stop was asked for, and nothing else was
heard. -/
def Attended (start : List String) (p : Affairs) (packets : List Bytes) (t : Trace)
    (p' : Affairs) : Prop :=
  ∃ turns, Company.Went (crowd start) p (packets.map .deliver) turns p' ∧
    t.filterMap Event.heard? = turns.flatMap Company.Turn.heard ∧
    ∀ turn ∈ turns, .requestStop ∉ turn.begun.history

theorem Attended.silent {t : Trace} (silent : t.filterMap Event.heard? = []) :
    Attended start p [] t p := ⟨[], .none, silent, fun _ h => absurd h List.not_mem_nil⟩

theorem Attended.trans {p₁ p' : Affairs} {packets more : List Bytes} {t u : Trace}
    (h : Attended start p packets t p₁) (h' : Attended start p₁ more u p') :
    Attended start p (packets ++ more) (t ++ u) p' := by
  obtain ⟨turns, hwent, hheard, hgoing⟩ := h
  obtain ⟨turns', hwent', hheard', hgoing'⟩ := h'
  refine ⟨turns ++ turns', ?_, ?_, fun turn hturn => ?_⟩
  · rw [List.map_append]
    exact hwent.append hwent'
  · rw [List.filterMap_append, hheard, hheard', List.flatMap_append]
  · rcases List.mem_append.1 hturn with hfirst | hrest
    · exact hgoing turn hfirst
    · exact hgoing' turn hrest

/-- What the reader does with its source is not heard by the listeners. -/
theorem Shows.onSource {x : Act Playback α} {result : Except Fault α} {r' : Scripted Playback}
    {t : Trace} (h : Shows start r p) (unheard : Playback.unheard.Keeps x)
    (run : Reader.onSource x r = ⟨result, r', t⟩) :
    Shows start r' p ∧ t.filterMap Event.heard? = [] := by
  have hx := unheard r.source trivial
  rw [source_of_onSource run] at hx
  have hothers := others_of_onSource run
  refine ⟨⟨?_, ?_, h.mild, fun hstop => hx.leads (h.stopping hstop)⟩,
    List.filterMap_eq_nil_iff.2 hx.events⟩
  · rw [hothers]
    exact h.listeners
  · rw [hothers]
    exact h.audience

theorem Shows.turn {packet : Bytes} {result : Except Fault Unit} {r' r'' : Scripted Playback}
    {t u : Trace} (h : Shows start r p) (enough : p.scripts.left ≤ depth)
    (going : r.stopping = false)
    (read : Reader.onSource PacketFeed.read r = ⟨.ok packet, r', t⟩)
    (heard : deliver (hear depth) packet r' = ⟨result, r'', u⟩) :
    ∃ p', Attended start p [packet] (t ++ u) p' ∧ Shows start r'' p' ∧
      p'.scripts.left ≤ p.scripts.left := by
  obtain ⟨hshows, hsilent⟩ := h.onSource Playback.unheard_read read
  obtain ⟨turn, hstep, rfl, -, hshown, hheard, hleft⟩ :=
    (plays start).turn (b := .deliver packet) hshows enough rfl
  rw [show perform _ (.deliver packet) r' = _ from heard] at hshown hheard
  have hgoing : .requestStop ∉ turn.begun.history := fun hstop => by
    have hstopping := h.stopping hstop
    rw [going] at hstopping
    exact nomatch hstopping
  have hwent : Company.Went (crowd start) turn.begun [.deliver packet] [turn] turn.ended := by
    rw [← hstep]
    exact .turn turn .none
  refine ⟨turn.ended, ⟨[turn], hwent, ?_, fun other hother => ?_⟩, hshown, hleft⟩
  · rw [List.filterMap_append, hsilent, hheard]
    simp
  · rw [List.mem_singleton.1 hother]
    exact hgoing

theorem Reads.attended {packets : List Bytes} {halt : Halt} {t : Trace}
    (h : Reads (hear depth) r packets halt s t) (shows : Shows start r p)
    (enough : p.scripts.left ≤ depth) :
    ∃ p', Attended start p packets t p' ∧ Shows start s p' ∧ p'.scripts.left ≤ p.scripts.left := by
  induction h generalizing p with
  | stopped stopping => exact ⟨p, .silent rfl, shows, Nat.le_refl _⟩
  | unread going read =>
    obtain ⟨hshows, hsilent⟩ := shows.onSource Playback.unheard_read read
    exact ⟨p, .silent hsilent, hshows, Nat.le_refl _⟩
  | unheard going read heard => exact shows.turn enough going read heard
  | heard going read heard rest ih =>
    obtain ⟨p₁, hturn, hshows, hleft⟩ := shows.turn enough going read heard
    obtain ⟨p', hrest, hshows', hleft'⟩ := ih hshows (Nat.le_trans hleft enough)
    exact ⟨p', hturn.trans hrest, hshows', Nat.le_trans hleft' hleft⟩

theorem Stays.attended {stay : Option Stay} {o : Outcome (Scripted Playback) Unit}
    (h : Stays (hear depth) r stay o) (shows : Shows start r p) (enough : p.scripts.left ≤ depth) :
    ∃ p', Attended start p (stay.toList.flatMap Stay.packets) o.trace p' ∧ Shows start o.state p' ∧
      p'.scripts.left ≤ p.scripts.left := by
  cases h with
  | shut connect =>
    obtain ⟨hshows, hsilent⟩ := shows.onSource Playback.unheard_connect connect
    exact ⟨p, .silent hsilent, hshows, Nat.le_refl _⟩
  | @opened r' s r'' packets halt closed t u v connect reads close =>
    obtain ⟨hopened, hsilent⟩ := shows.onSource Playback.unheard_connect connect
    obtain ⟨p', hread, hshows, hleft⟩ := reads.attended hopened enough
    obtain ⟨hclosed, hsilent'⟩ := hshows.onSource Playback.unheard_close close
    have hall := (Attended.silent hsilent).trans (hread.trans (.silent hsilent'))
    refine ⟨p', ?_, hclosed, hleft⟩
    simpa using hall

theorem Stays.attended_before {stay : Option Stay} {stays : List (Option Stay)}
    {o : Outcome (Scripted Playback) Unit} {t u : Trace} {listeners : List String}
    (h : Stays (hear depth) r stay o) (shows : Shows start r p) (enough : p.scripts.left ≤ depth)
    (silent : t.filterMap Event.heard? = [])
    (rest : ∀ p, Shows start o.state p → p.scripts.left ≤ depth →
      ∃ p', Attended start p ((stays.filterMap id).flatMap Stay.packets) u p' ∧
        listeners = registered start p'.history) :
    ∃ p', Attended start p (((stay :: stays).filterMap id).flatMap Stay.packets)
        (o.trace ++ t ++ u) p' ∧ listeners = registered start p'.history := by
  obtain ⟨p₁, hfirst, hshows, hleft⟩ := h.attended shows enough
  obtain ⟨p', hrest, hlisteners⟩ := rest p₁ hshows (Nat.le_trans hleft enough)
  have hall := (hfirst.trans (.silent silent)).trans hrest
  refine ⟨p', ?_, hlisteners⟩
  cases stay <;> simpa using hall

/-- In a run the packets of all its stays are delivered, in turns. -/
theorem Runs.attended {visits : List (Outcome (Scripted Playback) Unit)}
    {stays : List (Option Stay)} {o : Outcome (Scripted Playback) Unit}
    (h : Runs (hear depth) r visits o) (stations : Stations (hear depth) r stays visits)
    (shows : Shows start r p) (enough : p.scripts.left ≤ depth) :
    ∃ p', Attended start p ((stays.filterMap id).flatMap Stay.packets) o.trace p' ∧
      o.state.listeners = registered start p'.history := by
  have hlast {r : Scripted Playback} (p : Affairs) (shows : Shows start r p)
      (_ : p.scripts.left ≤ depth) :
      ∃ p', Attended start p ((([] : List (Option Stay)).filterMap id).flatMap Stay.packets) [] p' ∧
        r.listeners = registered start p'.history := ⟨p, .silent rfl, shows.listeners⟩
  induction h generalizing p stays with
  | stopped stopping =>
    cases stations
    exact hlast p shows enough
  | again going visit ok rest ih =>
    obtain _ | ⟨first, later⟩ := stations
    have hall := first.attended_before (t := []) shows enough rfl fun p => ih later
    rwa [List.append_nil] at hall
  | interrupted going visit failed interrupt | released going visit failed link stopping =>
    obtain _ | ⟨first, _ | _⟩ := stations
    have hall := first.attended_before (t := []) shows enough rfl hlast
    rwa [List.append_nil, List.append_nil] at hall
  | revived going visit failed link wanted revive rest ih =>
    obtain _ | ⟨first, later⟩ := stations
    exact first.attended_before shows enough rfl fun p => ih later
  | @kept r o fault going visit failed interrupt lasting =>
    obtain _ | ⟨first, _ | _⟩ := stations
    have hall := first.attended_before (t := [.notice (.died o.state.describe fault)]) shows enough
      rfl hlast
    rwa [List.append_nil] at hall

/-- Listeners leave what a source has recorded as it is. -/
theorem Deeds.recorded {ι ν : Type} {r : Reader Playback ι ν}
    {o : Outcome (Reader Playback ι ν) Unit} (h : Deeds r o) :
    o.state.source.items = r.source.items ∧ o.state.source.sessions = r.source.sessions := by
  induction h with
  | rest | fail | remark | remember | register => exact ⟨rfl, rfl⟩
  | @stop r =>
    have hstate : (requestStop r).state.source = (Playback.requestStop r.source).state := rfl
    rw [hstate, Playback.requestStop_state]
    exact ⟨rfl, rfl⟩
  | next first second ih ih' | caught first second ih ih' =>
    exact ⟨ih'.1.trans ih.1, ih'.2.trans ih.2⟩

/-- The packets of a stay are those at the front of a session, up to where reading came to a
halt. -/
def Stay.Takes (stay : Stay) (items : List Item) : Prop :=
  ∃ rest, items = stay.packets.map .packet ++ rest ∧
    ∀ fault, stay.halt = .unread fault → ∀ packet, rest.head? ≠ some (.packet packet)

end

section
variable {ι ν : Type} {P : ν → Prop} {hear : Hearing Playback ι ν} (gentle : Gentle P hear)
  {r s : Reader Playback ι ν}
include gentle

omit gentle in
theorem read_front_of_onSource {r' : Reader Playback ι ν} {result : Except Fault Bytes} {t : Trace}
    (read : Reader.onSource PacketFeed.read r = ⟨result, r', t⟩) :
    r'.source.sessions = r.source.sessions ∧
      (∀ packet, result = .ok packet → r.source.items = .packet packet :: r'.source.items) ∧
      ∀ fault, result = .error fault → ∀ packet, r.source.items.head? ≠ some (.packet packet) := by
  have hfront := Playback.read_front r.source
  rwa [show Playback.read r.source = _ from source_of_onSource read] at hfront

theorem Reads.takes {packets : List Bytes} {halt : Halt} {t : Trace}
    (h : Reads hear r packets halt s t) (holds : P r.audience) :
    s.source.sessions = r.source.sessions ∧ ∃ rest,
      r.source.items = packets.map .packet ++ rest ∧
        ∀ fault, halt = .unread fault → ∀ packet, rest.head? ≠ some (.packet packet) := by
  induction h with
  | stopped stopping => exact ⟨rfl, _, rfl, nofun⟩
  | @unread r r' fault t going read =>
    obtain ⟨hsessions, -, hend⟩ := read_front_of_onSource read
    exact ⟨hsessions, _, rfl, fun _ _ => hend fault rfl⟩
  | @unheard r r' r'' packet fault t u going read heard =>
    obtain ⟨hsessions, hitems, -⟩ := read_front_of_onSource read
    have hdeeds := (gentle.deliver packet (r := r') (others_of_onSource read ▸ holds)).1
    rw [heard] at hdeeds
    exact ⟨hdeeds.recorded.2.trans hsessions, _, hitems packet rfl, nofun⟩
  | @heard r r' r'' s packet packets halt t u v going read heard rest ih =>
    obtain ⟨hsessions, hitems, -⟩ := read_front_of_onSource read
    obtain ⟨hdeeds, hholds⟩ := gentle.deliver packet (r := r') (others_of_onSource read ▸ holds)
    rw [heard] at hdeeds hholds
    obtain ⟨hsessions', later, hlater, hend⟩ := ih hholds
    refine ⟨hsessions'.trans (hdeeds.recorded.2.trans hsessions), later, ?_, hend⟩
    rw [hitems packet rfl, ← hdeeds.recorded.1, hlater]
    rfl

theorem Stays.takes {stay : Option Stay} {o : Outcome (Reader Playback ι ν) Unit}
    (h : Stays hear r stay o) (holds : P r.audience) :
    o.state.source.sessions = r.source.sessions.tail ∧
      ∀ st ∈ stay, ∃ session ∈ r.source.sessions.head?, st.Takes session.items := by
  obtain ⟨hsessions, hopens⟩ := Playback.connect_front r.source
  cases h with
  | @shut r' fault t connect =>
    rw [show Playback.connect r.source = _ from source_of_onSource connect] at hsessions
    refine ⟨hsessions, fun st hst => ?_⟩
    cases hst
  | @opened r' s r'' packets halt closed t u v connect reads close =>
    rw [show Playback.connect r.source = _ from source_of_onSource connect] at hsessions hopens
    obtain ⟨session, hsession, hitems⟩ := hopens rfl
    obtain ⟨hkept, rest, htaken, hend⟩ := reads.takes gentle (others_of_onSource connect ▸ holds)
    have hclose := Playback.close_state s.source
    rw [show Playback.close s.source = _ from source_of_onSource close] at hclose
    refine ⟨?_, fun st hst => ⟨session, hsession, ?_⟩⟩
    · rw [← hsessions, ← hkept, ← hclose]
    · obtain rfl := Option.some.inj hst
      exact ⟨rest, hitems.symm.trans htaken, hend⟩

/-- The stays of a run take the sessions of the source, one by one. -/
theorem Stations.takes {visits : List (Outcome (Reader Playback ι ν) Unit)}
    {stays : List (Option Stay)} (h : Stations hear r stays visits) (holds : P r.audience) (i : Nat)
    {stay : Stay} (stayed : stays[i]? = some (some stay)) :
    ∃ session, r.source.sessions[i]? = some session ∧ stay.Takes session.items := by
  induction h generalizing i with
  | none => exact nomatch stayed
  | @more r first stays o visits one rest ih =>
    obtain ⟨hsessions, htakes⟩ := one.takes gentle holds
    have hallows := (one.visits.allows (suits_polite gentle) holds).1
    cases i with
    | zero =>
      obtain ⟨session, hsession, htaken⟩ := htakes stay (Option.some.inj stayed)
      rw [List.head?_eq_getElem?] at hsession
      exact ⟨session, hsession, htaken⟩
    | succ i =>
      obtain ⟨session, hsession, htaken⟩ := ih hallows.holds i stayed
      rw [hsessions, List.getElem?_tail] at hsession
      exact ⟨session, hsession, htaken⟩

end

/-- Whatever listeners do, a packet goes to those who are listeners when its delivery begins. -/
theorem deliver_calls {σ ι ν : Type} (hear : Hearing σ ι ν) (packet : Bytes) (r : Reader σ ι ν) :
    ∃ calls,
      Company.Calls (hear · packet) r.listeners r calls (deliver hear packet r).state
        (deliver hear packet r).trace ∧
      (deliver hear packet r).result = Fault.ended (Company.raised calls) :=
  Company.each_calls _ r.listeners r

/-- In a run the packets read are delivered, once each and in order, and none is read once a
listener has asked for a stop. Each delivery, also one by a listener who is called, calls those who
are listeners when it begins, in order and once for each registration, up to the first who faults.
What is registered or deregistered meanwhile counts from the next delivery on. The first part is
about any listeners who leave the loops of the reader alone, the second about what is heard of
scripted ones. -/
theorem run_delivers {r : Scripted Playback} (mild : r.audience.Each IsMild) :
    (∀ {ι ν : Type} {P : ν → Prop} {hear : Hearing Playback ι ν}, Gentle P hear →
      ∀ s : Reader Playback ι ν, P s.audience →
        (∃ visits stays, Runs hear s visits (run hear s) ∧ Stations hear s stays visits ∧
          ∀ (i : Nat) (stay : Stay), stays[i]? = some (some stay) →
            ∃ session, s.source.sessions[i]? = some session ∧ stay.Takes session.items) ∧
        ∀ packet, ∃ calls,
          Company.Calls (hear · packet) s.listeners s calls (deliver hear packet s).state
            (deliver hear packet s).trace ∧
          (deliver hear packet s).result = Fault.ended (Company.raised calls) ∧
          Company.Follows s.listeners calls) ∧
    (let o := performScripted .run r
      ∀ visits stays, Runs (hear r.audience.left) r visits o →
        Stations (hear r.audience.left) r stays visits →
        ∃ (turns : List (Company.Turn (crowd r.listeners))) (p' : Affairs),
          let steps := ((stays.filterMap id).flatMap Stay.packets).map Step.deliver
          turns.map Company.Turn.step = steps ∧
          Company.Went (crowd r.listeners) ⟨[], r.audience⟩ steps turns p' ∧
          o.trace.filterMap Event.heard? = turns.flatMap Company.Turn.heard ∧
          o.state.listeners = registered r.listeners p'.history ∧
          ∀ turn ∈ turns, .requestStop ∉ turn.begun.history ∧
            turn.heard.Perm ((turn.all.flatMap Round.calls).map Prod.fst) ∧
            ∀ round ∈ turn.all,
              ∃ packet, round.step = .deliver packet ∧
                Company.Follows ((registered r.listeners round.begun.history).map (·, packet))
                  round.calls) ∧
    ∀ (name : String) (s : Scripted Playback),
      add name s = ⟨.ok (), { s with listeners := s.listeners ++ [name] }, []⟩ ∧
      (∀ front back, name ∉ front → s.listeners = front ++ name :: back →
        remove name s = ⟨.ok (), { s with listeners := front ++ back }, []⟩) ∧
      (name ∉ s.listeners → remove name s = ⟨.error .notListening, s, []⟩) ∧
      Fault.notListening.label = "ValueError" := by
  refine ⟨fun gentle s holds => ⟨?_, fun packet => ?_⟩, ?_,
    fun name s => ⟨rfl, fun front back hfront hlisteners => ?_, remove_of_not_mem, rfl⟩⟩
  · obtain ⟨visits, hruns⟩ := run_runs (suits_polite gentle) holds
    obtain ⟨stays, hstations⟩ := hruns.stations
    exact ⟨visits, stays, hruns, hstations, fun i stay hstay =>
      hstations.takes gentle holds i hstay⟩
  · obtain ⟨calls, hcalls, hresult⟩ := deliver_calls _ packet s
    exact ⟨calls, hcalls, hresult, hcalls.follows⟩
  · intro o visits stays hruns hstations
    have hshows : Shows r.listeners r ⟨[], r.audience⟩ :=
      ⟨rfl, rfl, mild, fun h => absurd h List.not_mem_nil⟩
    obtain ⟨p', ⟨turns, hwent, hheard, hgoing⟩, hlisteners⟩ :=
      hruns.attended hstations hshows (Nat.le_refl _)
    refine ⟨turns, p', ?_, hwent, hheard, hlisteners,
      fun turn hturn => ⟨hgoing turn hturn, turn.heard_perm, fun round hround => ?_⟩⟩
    · refine hwent.steps fun step hstep p => ?_
      obtain ⟨packet, -, rfl⟩ := List.mem_map.1 hstep
      rfl
    · obtain ⟨agenda, hopens, hfollows⟩ := turn.follows hround
      obtain ⟨packet, hstep, rfl⟩ := delivers_of_agenda hopens
      exact ⟨packet, hstep, hfollows⟩
  · have hmem : name ∈ s.listeners := hlisteners ▸ List.mem_append_right _ (List.mem_cons_self ..)
    rw [remove_of_mem hmem, hlisteners, List.erase_append_right _ hfront, List.erase_cons_head]

/-- One who is taken off while a packet is delivered gets that packet still, and a stop lets no more
packets in. -/
theorem run_delivers_until_stopped :
    let source : Playback :=
      { title := "mote", sessions := [{ items := [.packet [1], .packet [2], .packet [3]] }] }
    let r : Scripted Playback :=
      { source, listeners := ["a", "b"]
        audience := [("a", [.step (.remove "b"), .step .requestStop]), ("b", [.step (.add "c")])] }
    ∃ turns : List (Company.Turn (crowd r.listeners)),
      turns.flatMap Company.Turn.heard =
        [("a", [1]), ("b", [1]), ("a", [2]), ("c", [2])] ∧
      ∀ turn ∈ turns, .requestStop ∉ turn.begun.history := by
  intro source r
  have hmild : r.audience.Each IsMild := by simp [Scripts.Each, r, IsMild, Step.IsPlain]
  obtain ⟨hany, hscripted, -⟩ := run_delivers hmild
  obtain ⟨⟨visits, stays, hruns, hstations, -⟩, -⟩ := hany (gentle_hear r.audience.left) r hmild
  rw [← performScripted_run] at hruns
  obtain ⟨turns, p', -, -, hheard, -, hturns⟩ := hscripted visits stays hruns hstations
  have htrace : (performScripted .run r).trace.filterMap Event.heard? =
      [("a", [1]), ("b", [1]), ("a", [2]), ("c", [2])] := by decide +kernel
  exact ⟨turns, hheard.symm.trans htrace, fun turn hturn => (hturns turn hturn).1⟩

end Reader
end MoteLink
