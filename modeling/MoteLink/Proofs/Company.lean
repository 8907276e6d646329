import MoteLink.Act
import MoteLink.Scripts

/-! Those who are called one by one, where each may call others while it is called. Whom a step
calls is settled when the step begins, whatever those who are called change meanwhile. Main
statements: `Company.Goes.follows` says what that means for every round of calls, and
`Company.Plays.each` that acts made of such calls do as the relation says. Of acts of any kind that
are called for in turn, `Company.each_calls` says as much. -/

namespace MoteLink

/-- `α` are calls, `β` the steps that the action of someone called can be, and `π` is what the
actions depend on and change. -/
structure Company (π α β : Type) where
  answer : α → π → Action β × π
  /-- The calls a step makes, if that is what it does. -/
  agenda : β → π → Option (List α)
  /-- What comes of any other step, with the fault it raises. -/
  change : β → π → Option Fault → π → Prop

/-- Calls made by a step, each with the fault it raised. -/
structure Round (π α β : Type) where
  step : β
  begun : π
  calls : List (α × Option Fault)

/-- Does what someone decided on when called. -/
def Action.follow (perform : β → Act σ Unit) : Action β → Act σ Unit
  | .rest => pure ()
  | .fails fault => Act.fail fault
  | .step b => perform b

namespace Company
variable {π α β : Type}

/-- The fault that some calls ended with. -/
def raised (calls : List (α × Option Fault)) : Option Fault := calls.getLast?.bind Prod.snd

/-- What comes of an action that calls nobody. -/
inductive Settles (c : Company π α β) : Action β → π → Option Fault → π → Prop where
  | rest {p} : Settles c .rest p none p
  | fails {fault p} : Settles c (.fails fault) p (some fault) p
  | step {b p fault p'} (nobody : c.agenda b p = none) (change : c.change b p fault p') :
      Settles c (.step b) p fault p'

/-- Calls made from one state of affairs to another, up to the first that raises a fault: those on
the agenda, the rounds that these brought about, and all the calls in the order in which they
began. -/
inductive Goes (c : Company π α β) :
    List α → π → List (α × Option Fault) → List (Round π α β) → List α → π → Prop where
  | nobody {p} : Goes c [] p [] [] [] p
  | settled {a p action p₁ fault p'} (answer : c.answer a p = (action, p₁))
      (settles : c.Settles action p₁ fault p') : Goes c [a] p [(a, fault)] [] [a] p'
  | round {a p b p₁ agenda calls rounds heard p'} (answer : c.answer a p = (.step b, p₁))
      (opens : c.agenda b p₁ = some agenda) (goes : Goes c agenda p₁ calls rounds heard p') :
      Goes c [a] p [(a, raised calls)] (⟨b, p₁, calls⟩ :: rounds) (a :: heard) p'
  | more {a agenda p rounds heard p₁ calls rounds' heard' p'}
      (first : Goes c [a] p [(a, none)] rounds heard p₁)
      (rest : Goes c agenda p₁ calls rounds' heard' p') :
      Goes c (a :: agenda) p ((a, none) :: calls) (rounds ++ rounds') (heard ++ heard') p'
  | broken {a agenda p fault rounds heard p'}
      (first : Goes c [a] p [(a, some fault)] rounds heard p') :
      Goes c (a :: agenda) p [(a, some fault)] rounds heard p'

/-- A step from outside that calls others, with all that it brought about. -/
structure Turn (c : Company π α β) where
  step : β
  begun : π
  agenda : List α
  opens : c.agenda step begun = some agenda
  calls : List (α × Option Fault)
  rounds : List (Round π α β)
  heard : List α
  ended : π
  goes : c.Goes agenda begun calls rounds heard ended

/-- All the rounds of a turn, its own at the front. -/
def Turn.all {c : Company π α β} (turn : Turn c) : List (Round π α β) :=
  ⟨turn.step, turn.begun, turn.calls⟩ :: turn.rounds

/-- Steps from outside, one after another, whatever comes of each. -/
inductive Went (c : Company π α β) : π → List β → List (Turn c) → π → Prop where
  | none {p} : Went c p [] [] p
  | turn {steps turns p'} (turn : Turn c) (rest : Went c turn.ended steps turns p') :
      Went c turn.begun (turn.step :: steps) (turn :: turns) p'
  | change {b p fault p₁ steps turns p'} (nobody : c.agenda b p = .none)
      (change : c.change b p fault p₁) (rest : Went c p₁ steps turns p') :
      Went c p (b :: steps) turns p'

/-- The calls of an agenda, once each and in order, up to the first that raises a fault. -/
structure Follows (agenda : List α) (calls : List (α × Option Fault)) : Prop where
  front : calls.map Prod.fst <+: agenda
  whole : raised calls = none → calls.map Prod.fst = agenda
  last : ∀ call ∈ calls.dropLast, call.2 = none

theorem raised_cons (a : α) (calls : List (α × Option Fault)) :
    raised ((a, none) :: calls) = raised calls := by
  cases calls with
  | nil => rfl
  | cons call calls => rw [raised, List.getLast?_cons_cons, raised]

theorem Follows.nobody : Follows ([] : List α) [] :=
  ⟨List.prefix_refl _, fun _ => rfl, fun _ h => absurd h List.not_mem_nil⟩

theorem Follows.broken (a : α) (agenda : List α) (fault : Fault) :
    Follows (a :: agenda) [(a, some fault)] :=
  ⟨List.cons_prefix_cons.2 ⟨rfl, List.nil_prefix⟩, nofun, fun _ h => absurd h List.not_mem_nil⟩

theorem Follows.single (a : α) (fault : Option Fault) : Follows [a] [(a, fault)] :=
  ⟨List.prefix_refl _, fun _ => rfl, fun _ h => absurd h List.not_mem_nil⟩

theorem Follows.cons {agenda : List α} {calls : List (α × Option Fault)} (a : α)
    (h : Follows agenda calls) : Follows (a :: agenda) ((a, none) :: calls) := by
  refine ⟨List.cons_prefix_cons.2 ⟨rfl, h.front⟩, fun hwhole => ?_, fun call hcall => ?_⟩
  · rw [raised_cons] at hwhole
    exact congrArg (a :: ·) (h.whole hwhole)
  · cases calls with
    | nil => exact absurd hcall List.not_mem_nil
    | cons first calls =>
      rcases List.mem_cons.1 hcall with rfl | hrest
      · rfl
      · exact h.last call hrest

variable {c : Company π α β} {agenda : List α} {p p' : π} {calls : List (α × Option Fault)}
  {rounds : List (Round π α β)} {heard : List α}

theorem Goes.single {a : α} (h : Goes c [a] p calls rounds heard p') :
    ∃ fault, calls = [(a, fault)] := by
  cases h with
  | settled answer settles => exact ⟨_, rfl⟩
  | round answer opens goes => exact ⟨_, rfl⟩
  | more first rest =>
    cases rest
    exact ⟨_, rfl⟩
  | broken first => exact ⟨_, rfl⟩

/-- Every round keeps to the agenda that was its when it began. -/
theorem Goes.follows (h : Goes c agenda p calls rounds heard p') :
    Follows agenda calls ∧
      ∀ round ∈ rounds, ∃ agenda, c.agenda round.step round.begun = some agenda ∧
        Follows agenda round.calls := by
  induction h with
  | nobody => exact ⟨.nobody, by simp⟩
  | settled answer settles => exact ⟨.single _ _, by simp⟩
  | @round a p b p₁ agenda calls rounds heard p' answer opens goes ih =>
    refine ⟨.single _ _, fun round hround => ?_⟩
    rcases List.mem_cons.1 hround with rfl | hrest
    · exact ⟨agenda, opens, ih.1⟩
    · exact ih.2 round hrest
  | more first rest ih ih' =>
    refine ⟨ih'.1.cons _, fun round hround => ?_⟩
    rcases List.mem_append.1 hround with hfirst | hrest
    · exact ih.2 round hfirst
    · exact ih'.2 round hrest
  | broken first ih => exact ⟨.broken _ _ _, ih.2⟩

/-- Every call that is heard is one of a round, and every call of a round is heard. -/
theorem Goes.heard_perm (h : Goes c agenda p calls rounds heard p') :
    heard.Perm ((calls ++ rounds.flatMap Round.calls).map Prod.fst) := by
  induction h with
  | nobody => exact .refl _
  | settled answer settles => exact .refl _
  | round answer opens goes ih => exact ih.cons _
  | @more a agenda p rounds heard p₁ calls rounds' heard' p' first rest ih ih' =>
    have hswap := List.perm_append_comm_assoc ((rounds.flatMap Round.calls).map Prod.fst)
      (calls.map Prod.fst) ((rounds'.flatMap Round.calls).map Prod.fst)
    refine (ih.append ih').trans ?_
    simp only [List.map_append, List.flatMap_append, List.map_cons, List.cons_append,
      List.nil_append] at hswap ⊢
    exact hswap.cons a
  | broken first ih => exact ih

theorem Turn.follows (turn : Turn c) {round : Round π α β} (h : round ∈ turn.all) :
    ∃ agenda, c.agenda round.step round.begun = some agenda ∧ Follows agenda round.calls := by
  obtain ⟨hcalls, hrounds⟩ := turn.goes.follows
  rcases List.mem_cons.1 h with rfl | hnested
  · exact ⟨turn.agenda, turn.opens, hcalls⟩
  · exact hrounds round hnested

theorem Turn.heard_perm (turn : Turn c) :
    turn.heard.Perm ((turn.all.flatMap Round.calls).map Prod.fst) := turn.goes.heard_perm

theorem Went.append {p₁ : π} {steps steps' : List β} {turns turns' : List (Turn c)}
    (h : Went c p steps turns p₁) (h' : Went c p₁ steps' turns' p') :
    Went c p (steps ++ steps') (turns ++ turns') p' := by
  induction h with
  | none => exact h'
  | turn turn rest ih => exact .turn turn (ih h')
  | change nobody change rest ih => exact .change nobody change (ih h')

theorem Went.steps {steps : List β} {turns : List (Turn c)} (h : Went c p steps turns p')
    (opens : ∀ b ∈ steps, ∀ p, (c.agenda b p).isSome) : turns.map Turn.step = steps := by
  induction h with
  | none => rfl
  | turn turn rest ih =>
    rw [List.map_cons, ih fun b hb => opens b (List.mem_cons_of_mem _ hb)]
  | @change b p fault p₁ steps turns p' nobody change rest ih =>
    have hsome := opens b (List.mem_cons_self ..) p
    rw [nobody] at hsome
    exact nomatch hsome

/-- Acts called for one after another, up to the first that faults. -/
inductive Calls {σ : Type} (call : α → Act σ Unit) :
    List α → σ → List (α × Option Fault) → σ → Trace → Prop where
  | nobody {s} : Calls call [] s [] s []
  | heard {a agenda s s₁ t calls s' u} (heard : call a s = ⟨.ok (), s₁, t⟩)
      (rest : Calls call agenda s₁ calls s' u) :
      Calls call (a :: agenda) s ((a, none) :: calls) s' (t ++ u)
  | unheard {a agenda s fault s' t} (heard : call a s = ⟨.error fault, s', t⟩) :
      Calls call (a :: agenda) s [(a, some fault)] s' t

theorem Calls.follows {σ : Type} {call : α → Act σ Unit} {s s' : σ} {t : Trace}
    (h : Calls call agenda s calls s' t) : Follows agenda calls := by
  induction h with
  | nobody => exact .nobody
  | heard heard rest ih => exact ih.cons _
  | unheard heard => exact .broken _ _ _

/-- Whatever comes of a call, going through an agenda calls for it in order. -/
theorem each_calls {σ : Type} (call : α → Act σ Unit) (agenda : List α) (s : σ) :
    ∃ calls,
      Calls call agenda s calls (Act.each call agenda s).state (Act.each call agenda s).trace ∧
      (Act.each call agenda s).result = Fault.ended (raised calls) := by
  induction agenda generalizing s with
  | nil => exact ⟨[], .nobody, rfl⟩
  | cons a agenda ih =>
    rw [Act.each]
    cases hheard : call a s with
    | mk result s₁ t =>
      cases result with
      | error fault =>
        rw [Act.bind_error hheard]
        exact ⟨_, .unheard hheard, rfl⟩
      | ok _ =>
        obtain ⟨calls, hcalls, hresult⟩ := ih s₁
        rw [Act.bind_ok hheard]
        refine ⟨_, .heard hheard hcalls, ?_⟩
        rw [raised_cons]
        exact hresult

/-- How acts that call, and their events, keep to a company: `shows` says what a state of theirs
stands for, and `left` how many actions are left. An action is used up before it is done, and with
none left everyone rests. -/
structure Plays {σ : Type} (c : Company π α β) (shows : σ → π → Prop) (left : π → Nat)
    (fit : β → Prop) (call : Nat → α → Act σ Unit)
    (perform : (α → Act σ Unit) → β → Act σ Unit) (heard? : Event → Option α) : Prop where
  used (a : α) (p : π) : left (c.answer a p).2 ≤ left p ∧
    ((c.answer a p).1 ≠ .rest → left (c.answer a p).2 < left p)
  changed {b : β} {p p' : π} {fault : Option Fault} : c.change b p fault p' → left p' ≤ left p
  last {s : σ} {p : π} (a : α) : shows s p → left p = 0 →
    ∃ e, heard? e = some a ∧ c.answer a p = (.rest, p) ∧ call 0 a s = ⟨.ok (), s, [e]⟩
  next {s : σ} {p : π} (depth : Nat) (a : α) : shows s p →
    ∃ e s', heard? e = some a ∧ shows s' (c.answer a p).2 ∧
      (∀ b, (c.answer a p).1 = .step b → fit b) ∧
      call (depth + 1) a s = ((c.answer a p).1.follow (perform (call depth)) s').after [e]
  opens {s : σ} {p : π} {b : β} {agenda : List α} (call' : α → Act σ Unit) : shows s p →
    c.agenda b p = some agenda → perform call' b s = Act.each call' agenda s
  changes {s : σ} {p : π} {b : β} (call' : α → Act σ Unit) : shows s p → fit b →
    c.agenda b p = none →
    ∃ fault s' t p', perform call' b s = ⟨Fault.ended fault, s', t⟩ ∧ c.change b p fault p' ∧
      shows s' p' ∧ t.filterMap heard? = []

/-- What comes of calls, by the company. -/
def Comes {σ : Type} (c : Company π α β) (shows : σ → π → Prop) (left : π → Nat)
    (heard? : Event → Option α) (agenda : List α) (p : π) (o : Outcome σ Unit) : Prop :=
  ∃ calls rounds heard p', c.Goes agenda p calls rounds heard p' ∧
    o.result = Fault.ended (raised calls) ∧ shows o.state p' ∧ o.trace.filterMap heard? = heard ∧
    left p' ≤ left p

section
variable {σ : Type} {shows : σ → π → Prop} {left : π → Nat} {fit : β → Prop}
  {call : Nat → α → Act σ Unit} {perform : (α → Act σ Unit) → β → Act σ Unit}
  {heard? : Event → Option α}

theorem Comes.each {call : α → Act σ Unit} {depth : Nat}
    (single : ∀ a s p, shows s p → left p ≤ depth → Comes c shows left heard? [a] p (call a s))
    (agenda : List α) {s : σ} {p : π} (shown : shows s p) (enough : left p ≤ depth) :
    Comes c shows left heard? agenda p (Act.each call agenda s) := by
  induction agenda generalizing s p with
  | nil => exact ⟨[], [], [], p, .nobody, rfl, shown, rfl, Nat.le_refl _⟩
  | cons a agenda ih =>
    obtain ⟨calls, rounds, heard, p₁, hfirst, hresult, hshown, hheard, hleft⟩ :=
      single a s p shown enough
    obtain ⟨fault, rfl⟩ := hfirst.single
    cases hcall : call a s with
    | mk result s₁ t =>
      rw [hcall] at hresult hshown hheard
      obtain rfl : result = Fault.ended fault := hresult
      rw [Act.each]
      cases fault with
      | some fault =>
        rw [Act.bind_error hcall]
        exact ⟨_, _, _, p₁, .broken hfirst, rfl, hshown, hheard, hleft⟩
      | none =>
        obtain ⟨calls, rounds', heard', p', hrest, hresult', hshown', hheard', hleft'⟩ :=
          ih hshown (Nat.le_trans hleft enough)
        rw [Act.bind_ok hcall]
        refine ⟨_, _, _, p', .more hfirst hrest, ?_, hshown', ?_, Nat.le_trans hleft' hleft⟩
        · rw [raised_cons]
          exact hresult'
        · rw [← hheard, ← hheard']
          exact List.filterMap_append

/-- Acts whose depth covers the actions left do as their company does. -/
theorem Plays.each (plays : Plays c shows left fit call perform heard?) (depth : Nat)
    (agenda : List α) {s : σ} {p : π} (shown : shows s p) (enough : left p ≤ depth) :
    Comes c shows left heard? agenda p (Act.each (call depth) agenda s) := by
  induction depth generalizing agenda s p with
  | zero =>
    refine Comes.each (fun a s p shown enough => ?_) agenda shown enough
    obtain ⟨e, he, hanswer, hcall⟩ := plays.last a shown (Nat.le_zero.1 enough)
    rw [hcall]
    exact ⟨_, _, _, p, .settled hanswer .rest, rfl, shown, by simp [he], Nat.le_refl _⟩
  | succ depth ih =>
    refine Comes.each (fun a s p shown enough => ?_) agenda shown enough
    obtain ⟨e, s₁, he, hshown, hfit, hcall⟩ := plays.next depth a shown
    obtain ⟨hless, hused⟩ := plays.used a p
    have hone : [e].filterMap heard? = [a] := by simp [he]
    rw [hcall]
    generalize hanswer : c.answer a p = answer at hshown hfit hless hused
    obtain ⟨action, p₁⟩ := answer
    have hsettled {fault : Option Fault} {s' : σ} {t : Trace} {p' : π}
        (settles : c.Settles action p₁ fault p') (shown' : shows s' p') (less : left p' ≤ left p₁)
        (silent : t.filterMap heard? = []) :
        Comes c shows left heard? [a] p (Outcome.after [e] ⟨Fault.ended fault, s', t⟩) := by
      refine ⟨_, _, _, p', .settled hanswer settles, rfl, shown', ?_, Nat.le_trans less hless⟩
      rw [Outcome.after, List.filterMap_append, hone, silent]
      rfl
    cases action with
    | rest => exact hsettled .rest hshown (Nat.le_refl _) rfl
    | fails fault => exact hsettled .fails hshown (Nat.le_refl _) rfl
    | step b =>
      cases hagenda : c.agenda b p₁ with
      | none =>
        obtain ⟨fault, s', t, p', hstep, hchange, hshown', hsilent⟩ :=
          plays.changes (call depth) hshown (hfit b rfl) hagenda
        rw [Action.follow, hstep]
        exact hsettled (.step hagenda hchange) hshown' (plays.changed hchange) hsilent
      | some agenda' =>
        -- the action is used up, so one level less is enough for those whom it calls
        have hfewer : left p₁ ≤ depth := by
          have hlt := hused (by simp)
          dsimp only at hlt
          omega
        obtain ⟨calls, rounds, heard, p', hgoes, hresult, hshown', hheard, hleft⟩ :=
          ih agenda' hshown hfewer
        rw [Action.follow, plays.opens (call depth) hshown hagenda]
        refine ⟨_, _, _, p', .round hanswer hagenda hgoes, hresult, hshown', ?_,
          Nat.le_trans hleft hless⟩
        rw [Outcome.after, List.filterMap_append, hone, hheard]
        rfl

/-- A step that calls others is a turn of theirs. -/
theorem Plays.turn (plays : Plays c shows left fit call perform heard?) {depth : Nat} {b : β}
    {s : σ} {p : π} (shown : shows s p) (enough : left p ≤ depth)
    (opens : c.agenda b p = some agenda) :
    ∃ turn : Turn c, turn.step = b ∧ turn.begun = p ∧
      (perform (call depth) b s).result = Fault.ended (raised turn.calls) ∧
      shows (perform (call depth) b s).state turn.ended ∧
      (perform (call depth) b s).trace.filterMap heard? = turn.heard ∧
      left turn.ended ≤ left p := by
  obtain ⟨calls, rounds, heard, p', hgoes, hresult, hshown, hheard, hleft⟩ :=
    plays.each depth agenda shown enough
  rw [plays.opens (call depth) shown opens]
  exact ⟨⟨b, p, agenda, opens, calls, rounds, heard, p', hgoes⟩, rfl, rfl, hresult, hshown, hheard,
    hleft⟩

end
end Company
end MoteLink
