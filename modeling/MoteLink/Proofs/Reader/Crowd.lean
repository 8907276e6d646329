import MoteLink.Proofs.Company
import MoteLink.Proofs.Reader.Deeds

/-! Scripted listeners of a reader as a company: they register and deregister, deliver packets to
each other and ask for a stop, and whom a packet goes to is a matter of what was done before. Main
statement: `plays`. -/

namespace MoteLink

namespace Reader

/-- What a step makes of those who are registered. -/
def Step.register : Step → List String → List String
  | .add name, listeners => listeners ++ [name]
  | .remove name, listeners => listeners.erase name
  | _, listeners => listeners

/-- Who is registered after some steps, and was before. -/
def registered (start : List String) (history : List Step) : List String :=
  history.foldl (fun listeners step => step.register listeners) start

theorem registered_concat (start : List String) (history : List Step) (step : Step) :
    registered start (history ++ [step]) = step.register (registered start history) :=
  List.foldl_append ..

/-- What the listeners have done so far, and what is left of their scripts. -/
structure Affairs where
  history : List Step := []
  scripts : Scripts Step

def Affairs.after (p : Affairs) (step : Step) : Affairs :=
  { p with history := p.history ++ [step] }

/-- What listeners do besides delivering packets. Whether closing the source faults is its affair,
but a stop is asked for in any case. -/
inductive Changes (start : List String) : Step → Affairs → Option Fault → Affairs → Prop where
  | added {name p} : Changes start (.add name) p none (p.after (.add name))
  | removed {name p} (listens : name ∈ registered start p.history) :
      Changes start (.remove name) p none (p.after (.remove name))
  | missed {name p} (unknown : name ∉ registered start p.history) :
      Changes start (.remove name) p (some .notListening) p
  | stopped {p} (fault : Option Fault) :
      Changes start .requestStop p fault (p.after .requestStop)

/-- Listeners as scripted. Whom a packet goes to is a matter of what was done before. -/
def crowd (start : List String) : Company Affairs (String × Bytes) Step where
  answer call p := ((p.scripts.next call.1).1, { p with scripts := (p.scripts.next call.1).2 })
  agenda step p :=
    match step with
    | .deliver packet => some ((registered start p.history).map (·, packet))
    | _ => none
  change := Changes start

theorem delivers_of_agenda {start : List String} {step : Step} {p : Affairs}
    {agenda : List (String × Bytes)} (h : (crowd start).agenda step p = some agenda) :
    ∃ packet, step = .deliver packet ∧
      agenda = (registered start p.history).map (·, packet) := by
  cases step with
  | deliver packet => exact ⟨packet, rfl, (Option.some.inj h).symm⟩
  | add name | remove name | start | join | run | session | requestStop => exact nomatch h

/-- A reader whose listeners have done as much. -/
structure Shows (start : List String) (r : Scripted Playback) (p : Affairs) : Prop where
  listeners : r.listeners = registered start p.history
  audience : r.audience = p.scripts
  mild : p.scripts.Each IsMild
  stopping : .requestStop ∈ p.history → r.stopping

theorem Shows.after {start : List String} {r r' : Scripted Playback} {p : Affairs} {step : Step}
    (h : Shows start r p) (listeners : r'.listeners = step.register r.listeners)
    (audience : r'.audience = r.audience) (stops : r.stopping → r'.stopping)
    (stop : step = .requestStop → r'.stopping) : Shows start r' (p.after step) := by
  refine ⟨?_, audience.trans h.audience, h.mild, fun hstop => ?_⟩
  · rw [listeners, h.listeners]
    exact (registered_concat ..).symm
  · rcases List.mem_append.1 hstop with hbefore | hnow
    · exact stops (h.stopping hbefore)
    · exact stop (List.mem_singleton.1 hnow).symm

section
variable {σ ι ν : Type} [BEq ι] [LawfulBEq ι] {listener : ι} {r : Reader σ ι ν}

theorem remove_of_mem (h : listener ∈ r.listeners) :
    remove listener r = ⟨.ok (), { r with listeners := r.listeners.erase listener }, []⟩ := by
  have hcontains : r.listeners.contains listener = true := List.contains_iff_mem.2 h
  rw [remove, Act.bind_ok (Act.run_look _ _), if_pos hcontains]
  rfl

theorem remove_of_not_mem (h : listener ∉ r.listeners) :
    remove listener r = ⟨.error .notListening, r, []⟩ := by
  have hcontains : ¬ r.listeners.contains listener = true := mt List.contains_iff_mem.1 h
  rw [remove, Act.bind_ok (Act.run_look _ _), if_neg hcontains]
  rfl

end

/-- A stop that is asked for is remembered, even if closing the source faults. -/
theorem requestStop_run (r : Scripted Playback) :
    ∃ fault t, (requestStop : Act (Scripted Playback) Unit) r =
        ⟨Fault.ended fault, { r with source := { r.source with stopping := true } }, t⟩ ∧
      t.filterMap Event.heard? = [] := by
  have hstop : Playback.requestStop r.source =
      ⟨Fault.ended r.source.closeFault, { r.source with stopping := true }, [.close]⟩ := by
    cases hclose : r.source.closeFault <;>
      simp [Playback.requestStop, Playback.close, Playback.failIf, Act.run_bind, hclose,
        Outcome.after, Fault.ended]
  refine ⟨r.source.closeFault, [.close], ?_, rfl⟩
  rw [requestStop, onSource, Act.within]
  simp only [PacketFeed.requestStop, hstop]

theorem perform_changes {start : List String} {r : Scripted Playback} {p : Affairs} {step : Step}
    (call : String × Bytes → Act (Scripted Playback) Unit) (shows : Shows start r p)
    (plain : step.IsPlain) (nobody : (crowd start).agenda step p = none) :
    ∃ fault r' t p', perform (fun name packet => call (name, packet)) step r =
        ⟨Fault.ended fault, r', t⟩ ∧ (crowd start).change step p fault p' ∧ Shows start r' p' ∧
      t.filterMap Event.heard? = [] := by
  cases step with
  | add name => exact ⟨none, _, [], _, rfl, .added, shows.after rfl rfl id nofun, rfl⟩
  | remove name =>
    by_cases hlistens : name ∈ r.listeners
    · exact ⟨none, _, [], _, remove_of_mem hlistens, .removed (shows.listeners ▸ hlistens),
        shows.after rfl rfl id nofun, rfl⟩
    · exact ⟨some .notListening, r, [], p, remove_of_not_mem hlistens,
        .missed (shows.listeners ▸ hlistens), shows, rfl⟩
  | requestStop =>
    obtain ⟨fault, t, hstop, hsilent⟩ := requestStop_run r
    exact ⟨fault, _, t, _, hstop, .stopped fault,
      shows.after rfl rfl (fun _ => rfl) (fun _ => rfl), hsilent⟩
  | deliver packet => exact nomatch nobody
  | start | join | run | session => exact plain.elim

theorem follow_eq (hear : Hearing Playback String (Scripts Step)) (action : Action Step) :
    follow hear action = action.follow (perform hear) := by
  cases action <;> rfl

/-- Scripted listeners who leave the loops of the reader alone play their parts. -/
theorem plays (start : List String) :
    Company.Plays (crowd start) (Shows start) (·.scripts.left) Step.IsPlain
      (fun depth call => hear depth call.1 call.2)
      (fun call => perform fun name packet => call (name, packet)) Event.heard? where
  used call p := by
    obtain ⟨hle, hused⟩ := p.scripts.left_next call.1
    exact ⟨hle, fun haction => Nat.lt_of_succ_le (Nat.le_of_eq (hused haction))⟩
  changed {step p p' fault} hchange := by
    cases hchange <;> exact Nat.le_refl _
  last {r p} call shows hleft := by
    have hnone := Scripts.next_of_left call.1 hleft
    refine ⟨.heard call.1 call.2, rfl, ?_, rfl⟩
    simp only [crowd, hnone]
  next {r p} depth call shows := by
    obtain ⟨haction, hscripts⟩ := shows.mild.next trivial call.1
    refine ⟨.heard call.1 call.2, { r with audience := (r.audience.next call.1).2 }, rfl, ?_, ?_,
      ?_⟩
    · exact ⟨shows.listeners, by rw [shows.audience]; rfl, hscripts, shows.stopping⟩
    · intro step hstep
      have hmild : IsMild (.step step) := hstep ▸ haction
      exact hmild
    · rw [hear_succ, shows.audience, follow_eq]
      rfl
  opens {r p step agenda} call shows hagenda := by
    cases step with
    | deliver packet =>
      obtain rfl := Option.some.inj hagenda
      rw [← shows.listeners, Act.each_map]
      rfl
    | add name | remove name | start | join | run | session | requestStop => exact nomatch hagenda
  changes {r p step} call shows plain hnobody := perform_changes call shows plain hnobody

end Reader
end MoteLink
