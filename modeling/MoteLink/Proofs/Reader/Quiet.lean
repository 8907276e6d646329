import MoteLink.Proofs.Reader.Stays

/-! Listeners who take no part in how a run goes: they never fault and leave the source alone. If
they do no more than log what they are given, their logs are the packets handed out, each by all of
them in turn. Main statement: `Runs.logged`. -/

namespace MoteLink.Reader
variable {σ ι ν : Type}

/-- Listeners who never fault and leave the source alone. -/
structure Quiet (P : ν → Prop) (hear : Hearing σ ι ν) : Prop where
  result : ∀ listener packet r, P r.audience → (hear listener packet r).result = .ok ()
  source : ∀ listener packet r, P r.audience → (hear listener packet r).state.source = r.source
  revive : ∀ listener packet r, P r.audience → (hear listener packet r).state.revive = r.revive
  stays : ∀ listener packet r, P r.audience → P (hear listener packet r).state.audience

/-- Listeners who log each packet once, under their names, and let nobody come or go. -/
structure Logs (P : ν → Prop) (name : ι → String) (hear : Hearing σ ι ν) : Prop where
  heard : ∀ listener packet r, P r.audience →
    (hear listener packet r).trace.filterMap Event.heard? = [(name listener, packet)]
  listeners : ∀ listener packet r, P r.audience →
    (hear listener packet r).state.listeners = r.listeners

/-- What is logged if each packet goes to each listener in turn. -/
def log (name : ι → String) (listeners : List ι) (packets : List Bytes) : List (String × Bytes) :=
  packets.flatMap fun packet => listeners.map fun listener => (name listener, packet)

/-- A source that listeners are no part of. -/
structure Unheard (σ : Type) [PacketFeed σ] : Prop where
  connect : ∀ s : σ, (PacketFeed.connect s).trace.filterMap Event.heard? = []
  read : ∀ s : σ, (PacketFeed.read s).trace.filterMap Event.heard? = []
  close : ∀ s : σ, (PacketFeed.close s).trace.filterMap Event.heard? = []

/-- From one reader to another these packets were logged, and the listeners are still the same. -/
structure Logged (P : ν → Prop) (name : ι → String) (r : Reader σ ι ν) (packets : List Bytes)
    (t : Trace) (r' : Reader σ ι ν) : Prop where
  heard : t.filterMap Event.heard? = log name r.listeners packets
  listeners : r'.listeners = r.listeners
  holds : P r'.audience

theorem packets_cons (stay : Option Stay) (stays : List (Option Stay)) :
    ((stay :: stays).filterMap id).flatMap Stay.packets =
      stay.toList.flatMap Stay.packets ++ (stays.filterMap id).flatMap Stay.packets := by
  cases stay <;> simp

theorem packets_single (stay : Option Stay) :
    ([stay].filterMap id).flatMap Stay.packets = stay.toList.flatMap Stay.packets :=
  (packets_cons stay []).trans (List.append_nil _)

section
variable {P : ν → Prop} {name : ι → String} {hear : Hearing σ ι ν} {r r' r'' : Reader σ ι ν}
  {packets more : List Bytes} {t u : Trace}

theorem Logged.trans (h : Logged P name r packets t r') (h' : Logged P name r' more u r'') :
    Logged P name r (packets ++ more) (t ++ u) r'' := by
  refine ⟨?_, h'.listeners.trans h.listeners, h'.holds⟩
  rw [List.filterMap_append, h.heard, h'.heard, h.listeners, log, log, log, List.flatMap_append]

theorem Logged.remark (h : Logged P name r packets t r') (silent : u.filterMap Event.heard? = []) :
    Logged P name r packets (t ++ u) r' := by
  refine ⟨?_, h.listeners, h.holds⟩
  rw [List.filterMap_append, silent, List.append_nil, h.heard]

theorem Logged.onSource {x : Act σ α} {result : Except Fault α}
    (silent : ∀ s, (x s).trace.filterMap Event.heard? = []) (holds : P r.audience)
    (run : Reader.onSource x r = ⟨result, r', t⟩) : Logged P name r [] t r' := by
  have hsilent := silent r.source
  rw [source_of_onSource run] at hsilent
  rw [others_of_onSource run]
  exact ⟨hsilent, rfl, holds⟩

theorem Quiet.deliver (quiet : Quiet P hear) (packet : Bytes) (holds : P r.audience) :
    ∃ r' t, Reader.deliver hear packet r = ⟨.ok (), r', t⟩ ∧ r'.source = r.source ∧
      P r'.audience := by
  have heach (listeners : List ι) (r : Reader σ ι ν) (holds : P r.audience) :
      ∃ r' t, Act.each (hear · packet) listeners r = ⟨.ok (), r', t⟩ ∧ r'.source = r.source ∧
        P r'.audience := by
    induction listeners generalizing r with
    | nil => exact ⟨r, [], rfl, rfl, holds⟩
    | cons listener rest ih =>
      have hresult := quiet.result listener packet r holds
      have hsource := quiet.source listener packet r holds
      have hstays := quiet.stays listener packet r holds
      obtain ⟨r', t, heach, hsame, hholds⟩ := ih _ hstays
      refine ⟨r', (hear listener packet r).trace ++ t, ?_, hsame.trans hsource, hholds⟩
      rw [Act.each, Act.bind_of_result hresult, heach]
      rfl
  exact heach r.listeners r holds

variable (quiet : Quiet P hear) (logs : Logs P name hear)
include quiet logs

theorem Logs.deliver {packet : Bytes} {result : Except Fault Unit} (holds : P r.audience)
    (delivered : Reader.deliver hear packet r = ⟨result, r', t⟩) :
    Logged P name r [packet] t r' := by
  have heach (listeners : List ι) (r : Reader σ ι ν) (holds : P r.audience) :
      let o := Act.each (hear · packet) listeners r
      o.trace.filterMap Event.heard? = listeners.map (fun listener => (name listener, packet)) ∧
        o.state.listeners = r.listeners ∧ P o.state.audience := by
    induction listeners generalizing r with
    | nil => exact ⟨rfl, rfl, holds⟩
    | cons listener rest ih =>
      obtain ⟨hheard, hlisteners, hholds⟩ := ih _ (quiet.stays listener packet r holds)
      rw [Act.each, Act.bind_of_result (quiet.result listener packet r holds)]
      refine ⟨?_, hlisteners.trans (logs.listeners listener packet r holds), hholds⟩
      rw [Outcome.after, List.filterMap_append, logs.heard listener packet r holds, hheard]
      rfl
  have hall := heach r.listeners r holds
  rw [show Act.each (hear · packet) r.listeners r = _ from delivered] at hall
  refine ⟨hall.1.trans ?_, hall.2.1, hall.2.2⟩
  simp [log]

variable [PacketFeed σ] (unheard : Unheard σ)
include unheard

theorem Reads.logged {halt : Halt} (h : Reads hear r packets halt r' t) (holds : P r.audience) :
    Logged P name r packets t r' := by
  induction h with
  | stopped stopping => exact ⟨rfl, rfl, holds⟩
  | unread going read => exact .onSource unheard.read holds read
  | unheard going read heard =>
    have hread : Logged P name _ [] _ _ := .onSource unheard.read holds read
    exact hread.trans (logs.deliver quiet hread.holds heard)
  | heard going read heard rest ih =>
    have hread : Logged P name _ [] _ _ := .onSource unheard.read holds read
    have hboth := hread.trans (logs.deliver quiet hread.holds heard)
    exact hboth.trans (ih hboth.holds)

theorem Stays.logged {stay : Option Stay} {o : Outcome (Reader σ ι ν) Unit}
    (h : Stays hear r stay o) (holds : P r.audience) :
    Logged P name r (stay.toList.flatMap Stay.packets) o.trace o.state := by
  cases h with
  | shut connect => exact .onSource unheard.connect holds connect
  | opened connect reads close =>
    have hconnect : Logged P name _ [] _ _ := .onSource unheard.connect holds connect
    have hreads := reads.logged quiet logs unheard hconnect.holds
    have hclose : Logged P name _ [] _ _ := .onSource unheard.close hreads.holds close
    simpa using hconnect.trans (hreads.trans hclose)

/-- What listeners log in a run is what they were handed. -/
theorem Runs.logged {visits : List (Outcome (Reader σ ι ν) Unit)} {stays : List (Option Stay)}
    {o : Outcome (Reader σ ι ν) Unit} (h : Runs hear r visits o)
    (stations : Stations hear r stays visits) (holds : P r.audience) :
    Logged P name r ((stays.filterMap id).flatMap Stay.packets) o.trace o.state := by
  induction h generalizing stays with
  | stopped stopping =>
    cases stations
    exact ⟨rfl, rfl, holds⟩
  | again going visit ok rest ih =>
    obtain _ | ⟨first, later⟩ := stations
    have hfirst := first.logged quiet logs unheard holds
    rw [packets_cons]
    exact hfirst.trans (ih later hfirst.holds)
  | interrupted going visit failed interrupt | released going visit failed link stopping =>
    obtain _ | ⟨first, _ | _⟩ := stations
    rw [packets_single]
    exact first.logged quiet logs unheard holds
  | kept going visit failed interrupt lasting =>
    obtain _ | ⟨first, _ | _⟩ := stations
    have hfirst := first.logged quiet logs unheard holds
    rw [packets_single]
    exact ⟨(hfirst.remark rfl).heard, hfirst.listeners, hfirst.holds⟩
  | revived going visit failed link wanted revive rest ih =>
    obtain _ | ⟨first, later⟩ := stations
    have hfirst := first.logged quiet logs unheard holds
    rw [packets_cons]
    exact (hfirst.remark rfl).trans (ih later hfirst.holds)

end
end MoteLink.Reader
