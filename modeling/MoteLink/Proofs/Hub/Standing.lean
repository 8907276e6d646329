import MoteLink.Hub.Script
import MoteLink.Proofs.Company
import MoteLink.Proofs.Contract
import MoteLink.Proofs.Trace

/-! Who gets a packet, by all the subscribing and unsubscribing there has been before, whoever did
it. Main statement: `enact_delivers`. -/

namespace MoteLink

def Event.delivery? : Event → Option (Delivery String)
  | .delivered subscriber destination message => some ⟨subscriber, destination, message⟩
  | _ => none

namespace Hub

/-- What changes who gets what. -/
inductive Order (ι : Type) where
  | subscribe (template : Message) (subscriber : ι)
  | unsubscribe (template : Message) (subscriber : ι)

section
variable {ι : Type} [DecidableEq ι]

def Order.obey : Order ι → Hub ι → Hub ι
  | .subscribe template subscriber, h => h.subscribe template subscriber
  | .unsubscribe template subscriber, h => h.unsubscribe template subscriber

/-- Ends what a subscriber has of a type. -/
def Order.ends (type : Int) (subscriber : ι) : Order ι → Bool
  | .subscribe .. => false
  | .unsubscribe template other => template.kind.type = type ∧ other = subscriber

/-- No order ends what a subscriber has of a type. -/
def lasts (type : Int) (later : List (Order ι)) (subscriber : ι) : Bool :=
  later.all fun order => !order.ends type subscriber

/-- The subscriptions to a type that no later order has ended. -/
def standing (type : Int) : List (Order ι) → List (Subscription ι)
  | [] => []
  | .subscribe template subscriber :: later =>
    if template.kind.type = type ∧ lasts type later subscriber then
      ⟨template, subscriber⟩ :: standing type later
    else standing type later
  | .unsubscribe .. :: later => standing type later

/-- A hub after some more orders. -/
def following (h : Hub ι) (orders : List (Order ι)) : Hub ι :=
  orders.foldl (fun h order => order.obey h) h

/-- A new hub after some orders. -/
def ordered (history : List (Order ι)) : Hub ι := following {} history

theorem lasts_cons (type : Int) (order : Order ι) (later : List (Order ι)) (subscriber : ι) :
    lasts type (order :: later) subscriber =
      (!order.ends type subscriber && lasts type later subscriber) := List.all_cons

theorem find_following (type : Int) (orders : List (Order ι)) (h : Hub ι) :
    find type (h.following orders).subscriptions =
      (find type h.subscriptions).filter (fun s => lasts type orders s.subscriber) ++
        standing type orders := by
  induction orders generalizing h with
  | nil =>
    have hall : ∀ s ∈ find type h.subscriptions, lasts type [] s.subscriber := fun _ _ => rfl
    rw [List.filter_eq_self.2 hall]
    exact (List.append_nil _).symm
  | cons order later ih =>
    rw [following, List.foldl_cons, ← following, ih]
    cases order with
    | subscribe template subscriber =>
      have hfind : find type (h.subscribe template subscriber).subscriptions =
          if template.kind.type = type then find type h.subscriptions ++ [⟨template, subscriber⟩]
          else find type h.subscriptions := by
        rw [subscribe, find_change]
        split
        · rename_i hsame
          rw [hsame]
        · rfl
      have hlasts (s : Subscription ι) :
          lasts type (.subscribe template subscriber :: later) s.subscriber =
            lasts type later s.subscriber := by
        rw [lasts_cons]
        rfl
      simp only [Order.obey, hfind, hlasts, standing]
      by_cases htype : template.kind.type = type
      · rw [if_pos htype, List.filter_append, List.append_assoc]
        cases hsub : lasts type later subscriber <;> simp [htype, hsub]
      · rw [if_neg htype, if_neg fun h => htype h.1]
    | unsubscribe template subscriber =>
      have hfind : find type (h.unsubscribe template subscriber).subscriptions =
          (find type h.subscriptions).filter
            fun s => !(Order.unsubscribe template subscriber).ends type s.subscriber := by
        rw [unsubscribe, find_change]
        by_cases htype : template.kind.type = type
        · rw [if_pos htype, htype]
          refine List.filter_congr fun s _ => ?_
          simp [Order.ends, htype, eq_comm]
        · rw [if_neg htype]
          refine (List.filter_eq_self.2 fun s _ => ?_).symm
          simp [Order.ends, htype]
      simp only [Order.obey, hfind, List.filter_filter, standing]
      congr 1
      refine List.filter_congr fun s _ => ?_
      rw [lasts_cons, Bool.and_comm]

/-- Who gets what is a matter of these orders. -/
def Obeys (h : Hub ι) (history : List (Order ι)) : Prop :=
  ∀ type, find type h.subscriptions = standing type history

theorem obeys_ordered (history : List (Order ι)) : (ordered history).Obeys history :=
  fun type => find_following type history {}

theorem Obeys.append {h : Hub ι} {history : List (Order ι)} (obeys : h.Obeys history)
    (orders : List (Order ι)) : (h.following orders).Obeys (history ++ orders) := by
  intro type
  have hall := obeys_ordered (history ++ orders) type
  rw [ordered, following, List.foldl_append] at hall
  rw [find_following, obeys, ← hall, ← following, find_following]
  exact congrArg (List.filter _ · ++ _) (obeys_ordered history type).symm

/-- What a packet brings to whom after some orders. -/
def due (data : Bytes) (history : List (Order ι)) : List (Delivery ι) :=
  match Packet.parse? data with
  | none => []
  | some p =>
    (standing p.type.toNat history).map fun s =>
      { subscriber := s.subscriber
        destination := p.destination
        message :=
          { kind := s.template.kind
            data := p.payload
            destination := some p.destination
            source := some p.source
            group := some p.group.toNat } }

theorem Obeys.deliveries {h : Hub ι} {history : List (Order ι)} (obeys : h.Obeys history)
    (data : Bytes) : h.deliveries data = due data history := by
  unfold Hub.deliveries due
  cases Packet.parse? data with
  | none => rfl
  | some p => exact congrArg (List.map _) (obeys _)

/-- Whatever else an act does, it changes who gets what by orders only. -/
def byOrders {σ : Type} (hub : σ → Hub ι) : Act.Contract σ where
  holds _ := True
  leads s s' := ∃ orders, hub s' = (hub s).following orders
  event _ := True
  fault _ := True
  refl _ := ⟨[], rfl⟩
  trans := by
    rintro s s' s'' ⟨orders, hfirst⟩ ⟨more, hrest⟩
    refine ⟨orders ++ more, ?_⟩
    rw [hrest, hfirst]
    exact (List.foldl_append ..).symm

/-- Subscribers of any kind are called with what is due when the delivery begins, whatever they
order meanwhile. -/
theorem each_due {σ : Type} {hub : σ → Hub ι} {take : Delivery ι → Act σ Unit}
    (ordering : ∀ d, (byOrders hub).Keeps (take d)) {s : σ} {history : List (Order ι)}
    (obeys : (hub s).Obeys history) (data : Bytes) :
    let o := Act.each take ((hub s).deliveries data) s
    ∃ calls orders, Company.Calls take (due data history) s calls o.state o.trace ∧
      o.result = Fault.ended (Company.raised calls) ∧ (hub o.state).Obeys (history ++ orders) := by
  rw [obeys.deliveries data]
  obtain ⟨calls, hcalls, hresult⟩ := Company.each_calls take (due data history) s
  obtain ⟨orders, hhub⟩ := (Act.Contract.Keeps.each ordering (due data history) s trivial).leads
  exact ⟨calls, orders, hcalls, hresult, hhub ▸ obeys.append orders⟩

end

/-- What has been ordered so far, and what is left of the scripts. -/
structure Affairs where
  history : List (Order String) := []
  scripts : Scripts Step

def Affairs.after (p : Affairs) (order : Order String) : Affairs :=
  { p with history := p.history ++ [order] }

/-- What steps do besides handing out packets. A template that cannot be made changes nothing. -/
inductive Changes : Step → Affairs → Option Fault → Affairs → Prop where
  | subscribed {kind name p template} (made : Message.made { kind } = .ok template) :
      Changes (.subscribe kind name) p none (p.after (.subscribe template name))
  | unsubscribed {kind name p template} (made : Message.made { kind } = .ok template) :
      Changes (.unsubscribe kind name) p none (p.after (.unsubscribe template name))
  | unmade {step kind name p fault} (made : Message.made { kind } = .error fault)
      (needs : step = .subscribe kind name ∨ step = .unsubscribe kind name) :
      Changes step p (some fault) p

/-- Subscribers as scripted. Whom a packet goes to is a matter of what was ordered before. -/
def subscribers : Company Affairs (Delivery String) Step where
  answer d p :=
    ((p.scripts.next d.subscriber).1, { p with scripts := (p.scripts.next d.subscriber).2 })
  agenda step p :=
    match step with
    | .packet data => some (due data p.history)
    | _ => none
  change := Changes

theorem packet_of_agenda {step : Step} {p : Affairs} {agenda : List (Delivery String)}
    (h : subscribers.agenda step p = some agenda) :
    ∃ data, step = .packet data ∧ agenda = due data p.history := by
  cases step with
  | packet data => exact ⟨data, rfl, (Option.some.inj h).symm⟩
  | subscribe kind name | unsubscribe kind name => exact nomatch h

/-- A hub where as much has been ordered. -/
structure Shows (s : Scripted) (p : Affairs) : Prop where
  obeys : s.hub.Obeys p.history
  scripts : s.scripts = p.scripts

theorem take_succ (depth : Nat) (d : Delivery String) (s : Scripted) :
    take (depth + 1) d s =
      ((s.scripts.next d.subscriber).1.follow (perform (take depth))
        { s with scripts := (s.scripts.next d.subscriber).2 }).after
          [.delivered d.subscriber d.destination d.message] := by
  rw [take]
  cases haction : (s.scripts.next d.subscriber).1 with
  | rest | fails fault | step step => simp [Act.run_bind, haction, Action.follow, Outcome.after]

theorem Shows.after {s : Scripted} {p : Affairs} (h : Shows s p) (order : Order String) :
    Shows { s with hub := order.obey s.hub } (p.after order) :=
  ⟨h.obeys.append [order], h.scripts⟩

theorem perform_changes {s : Scripted} {p : Affairs} {step : Step}
    (take : Delivery String → Act Scripted Unit) (shows : Shows s p)
    (nobody : subscribers.agenda step p = none) :
    ∃ fault s' t p', perform take step s = ⟨Fault.ended fault, s', t⟩ ∧
      subscribers.change step p fault p' ∧ Shows s' p' ∧ t.filterMap Event.delivery? = [] := by
  cases step with
  | subscribe kind name =>
    cases hmade : Message.made { kind } with
    | ok template =>
      refine ⟨none, _, [], _, ?_, .subscribed hmade, shows.after (.subscribe template name), rfl⟩
      rw [perform, hmade]
      rfl
    | error fault =>
      refine ⟨some fault, s, [], p, ?_, .unmade hmade (.inl rfl), shows, rfl⟩
      rw [perform, hmade]
      rfl
  | unsubscribe kind name =>
    cases hmade : Message.made { kind } with
    | ok template =>
      refine ⟨none, _, [], _, ?_, .unsubscribed hmade, shows.after (.unsubscribe template name),
        rfl⟩
      rw [perform, hmade]
      rfl
    | error fault =>
      refine ⟨some fault, s, [], p, ?_, .unmade hmade (.inr rfl), shows, rfl⟩
      rw [perform, hmade]
      rfl
  | packet data => exact nomatch nobody

/-- Scripted subscribers play their parts. -/
theorem plays : Company.Plays subscribers Shows (·.scripts.left) (fun _ => True) take perform
    Event.delivery? where
  used d p := by
    obtain ⟨hle, hused⟩ := p.scripts.left_next d.subscriber
    exact ⟨hle, fun haction => Nat.lt_of_succ_le (Nat.le_of_eq (hused haction))⟩
  changed {step p p' fault} hchange := by
    cases hchange <;> exact Nat.le_refl _
  last {s p} d shows hleft := by
    have hnone := Scripts.next_of_left d.subscriber hleft
    refine ⟨.delivered d.subscriber d.destination d.message, rfl, ?_, rfl⟩
    simp only [subscribers, hnone]
  next {s p} depth d shows := by
    refine ⟨.delivered d.subscriber d.destination d.message,
      { s with scripts := (s.scripts.next d.subscriber).2 }, rfl, ⟨shows.obeys, ?_⟩,
      fun _ _ => trivial, ?_⟩
    · rw [shows.scripts]
      rfl
    · rw [take_succ, shows.scripts]
      rfl
  opens {s p step agenda} take shows hagenda := by
    cases step with
    | packet data =>
      obtain rfl := Option.some.inj hagenda
      rw [← shows.obeys.deliveries]
      rfl
    | subscribe kind name | unsubscribe kind name => exact nomatch hagenda
  changes {s p step} take shows _ nobody := perform_changes take shows nobody

/-- Scripted subscribers only ever order something of the hub. -/
theorem keeps_take (depth : Nat) (d : Delivery String) :
    (byOrders Scripted.hub).Keeps (take depth d) := by
  induction depth generalizing d with
  | zero => exact .bind (.emit trivial) fun _ => .pure ()
  | succ depth ih =>
    refine .bind (.emit trivial) fun _ => .bind (.look _) fun action => ?_
    refine .bind (.update fun _ _ => ⟨trivial, [], rfl⟩) fun _ => ?_
    cases action with
    | rest => exact .pure ()
    | fails fault => exact .fail trivial
    | step step =>
      cases step with
      | subscribe kind name =>
        exact .bind (.lift fun _ _ => trivial) fun template =>
          .update fun _ _ => ⟨trivial, [.subscribe template name], rfl⟩
      | unsubscribe kind name =>
        exact .bind (.lift fun _ _ => trivial) fun template =>
          .update fun _ _ => ⟨trivial, [.unsubscribe template name], rfl⟩
      | packet data => exact .bind (.look _) fun deliveries => .each ih deliveries

/-- Steps from outside, one after another, whatever comes of each. -/
def enact : List Step → Act Scripted Unit
  | [] => pure ()
  | step :: more => do
    let _ ← Act.attempt (performScripted step)
    enact more

theorem enact_cons (step : Step) (more : List Step) (s : Scripted) :
    enact (step :: more) s =
      (enact more (performScripted step s).state).after (performScripted step s).trace := rfl

theorem performScripted_perform (step : Step) (s : Scripted) :
    performScripted step s = perform (take s.scripts.left) step s := Outcome.after_nil _

theorem enact_went (steps : List Step) {s : Scripted} {p : Affairs} (shows : Shows s p) :
    ∃ turns p', Company.Went subscribers p steps turns p' ∧ Shows (enact steps s).state p' ∧
      (enact steps s).trace.filterMap Event.delivery? = turns.flatMap Company.Turn.heard := by
  induction steps generalizing s p with
  | nil => exact ⟨[], p, .none, shows, rfl⟩
  | cons step more ih =>
    rw [enact_cons, performScripted_perform]
    cases hagenda : subscribers.agenda step p with
    | none =>
      obtain ⟨fault, s', t, p₁, hstep, hchange, hshows, hsilent⟩ :=
        perform_changes (take s.scripts.left) shows hagenda
      obtain ⟨turns, p', hwent, hshows', hheard⟩ := ih hshows
      rw [hstep]
      refine ⟨turns, p', .change hagenda hchange hwent, hshows', ?_⟩
      rw [Outcome.after, List.filterMap_append, hsilent, List.nil_append, hheard]
    | some agenda =>
      have henough : p.scripts.left ≤ s.scripts.left := Nat.le_of_eq (by rw [shows.scripts])
      obtain ⟨turn, rfl, rfl, -, hshows, hheard, -⟩ := plays.turn shows henough hagenda
      obtain ⟨turns, p', hwent, hshows', hheard'⟩ := ih hshows
      refine ⟨turn :: turns, p', .turn turn hwent, hshows', ?_⟩
      rw [Outcome.after, List.filterMap_append, hheard, hheard', List.flatMap_cons]

/-- Each packet, also one that a subscriber passes on while another is handed out, goes to those
whose subscriptions to its type stand when its delivery begins, in the order of subscribing and once
for each, up to the first who faults. Each gets a message of the kind it subscribed with. Bytes that
are no packet change nothing, and unsubscribing ends what one subscriber has of one type. The first
part is about any subscribers, whatever else they do and as often as they order something, the
second about all that is handed out to scripted ones. -/
theorem enact_delivers (history : List (Order String)) (scripts : Scripts Step)
    (steps : List Step) :
    (∀ {σ ι : Type} [DecidableEq ι] {hub : σ → Hub ι} {take : Delivery ι → Act σ Unit},
      (∀ d, (byOrders hub).Keeps (take d)) →
        ∀ (s : σ) (before : List (Order ι)), (hub s).Obeys before → ∀ data,
          let o := Act.each take ((hub s).deliveries data) s
          ∃ calls orders, Company.Calls take (due data before) s calls o.state o.trace ∧
            o.result = Fault.ended (Company.raised calls) ∧
            Company.Follows (due data before) calls ∧
            (hub o.state).Obeys (before ++ orders)) ∧
    (let o := enact steps { hub := ordered history, scripts }
      ∃ (turns : List (Company.Turn subscribers)) (p' : Affairs),
        Company.Went subscribers ⟨history, scripts⟩ steps turns p' ∧ Shows o.state p' ∧
        o.trace.filterMap Event.delivery? = turns.flatMap Company.Turn.heard ∧
        ∀ turn ∈ turns,
          turn.heard.Perm ((turn.all.flatMap Round.calls).map Prod.fst) ∧
          ∀ round ∈ turn.all,
            ∃ data, round.step = .packet data ∧
              Company.Follows (due data round.begun.history) round.calls) ∧
    ∀ (take : Delivery String → Act Scripted Unit) (s : Scripted),
      (∀ data, Packet.parse? data = none → perform take (.packet data) s = ⟨.ok (), s, []⟩) ∧
      ∀ (kind : Kind) (name : String) (template : Message),
        Message.made { kind } = .ok template →
          perform take (.unsubscribe kind name) s =
            ⟨.ok (), { s with hub := s.hub.unsubscribe template name }, []⟩ ∧
          ∀ type, find type (s.hub.unsubscribe template name).subscriptions =
            if type = kind.type then
              (find type s.hub.subscriptions).filter fun entry => entry.subscriber ≠ name
            else find type s.hub.subscriptions := by
  refine ⟨fun ordering s before obeys data => ?_, ?_,
    fun take s => ⟨fun data hparse => ?_, fun kind name template hmade => ⟨?_, ?_⟩⟩⟩
  · obtain ⟨calls, orders, hcalls, hresult, hobeys⟩ := each_due ordering obeys data
    exact ⟨calls, orders, hcalls, hresult, hcalls.follows, hobeys⟩
  · have hshows : Shows { hub := ordered history, scripts } ⟨history, scripts⟩ :=
      ⟨obeys_ordered history, rfl⟩
    obtain ⟨turns, p', hwent, hshows', hheard⟩ := enact_went steps hshows
    refine ⟨turns, p', hwent, hshows', hheard,
      fun turn _ => ⟨turn.heard_perm, fun round hround => ?_⟩⟩
    obtain ⟨agenda, hopens, hfollows⟩ := turn.follows hround
    obtain ⟨data, hstep, rfl⟩ := packet_of_agenda hopens
    exact ⟨data, hstep, hfollows⟩
  · have hnone : s.hub.deliveries data = [] := by rw [deliveries, hparse]
    rw [perform, Act.bind_ok (Act.run_look _ _), hnone]
    rfl
  · rw [perform, hmade]
    rfl
  · obtain ⟨rfl, -⟩ := Message.made_eq_ok_iff.1 hmade
    intro type
    rw [unsubscribe, find_change]
    by_cases htype : kind.type = type
    · rw [if_pos htype, if_pos htype.symm, htype]
    · rw [if_neg htype, if_neg (Ne.symm htype)]

/-- Who is unsubscribed while a packet is handed out gets that packet still, and who subscribes
meanwhile gets the next one. -/
theorem enact_delivers_meanwhile :
    let kind : Kind := { label := "Report", type := 7 }
    let data := Packet.encode ⟨1, 2, 3, 7, [4]⟩
    let scripts : Scripts Step :=
      [("a", [.step (.unsubscribe kind "b"), .step (.packet data)]),
        ("b", [.step (.subscribe kind "c")])]
    let history : List (Order String) :=
      [.subscribe { kind } "a", .subscribe { kind } "b", .unsubscribe { kind } "d"]
    let s : Scripted := { hub := ordered history, scripts }
    (due data history).map (·.subscriber) = ["a", "b"] ∧
      (∃ calls, Company.Follows (due data history) calls ∧
        (Act.each (take 3) (s.hub.deliveries data) s).result =
          Fault.ended (Company.raised calls)) ∧
      ∃ turns : List (Company.Turn subscribers),
        (turns.flatMap Company.Turn.heard).map (·.subscriber) = ["a", "b", "a", "a", "c", "c"] := by
  intro kind data scripts history s
  obtain ⟨hany, ⟨turns, -, -, -, hheard, -⟩, -⟩ :=
    enact_delivers history scripts [.packet data, .packet data]
  obtain ⟨calls, -, -, hresult, hfollows, -⟩ := hany (keeps_take 3) s history (obeys_ordered _) data
  refine ⟨by decide +kernel, ⟨calls, hfollows, hresult⟩, turns, ?_⟩
  rw [← hheard]
  decide +kernel

end Hub
end MoteLink
