import MoteLink.Act

/-! Traces taken apart, and acts that leave events of some sort only. -/

namespace MoteLink

namespace Event

def isRead : Event → Bool
  | .readPort _ | .readSocket _ => true
  | _ => false

/-- What is sent to the other side. -/
def written? : Event → Option Bytes
  | .writePort data | .writeSocket data => some data
  | _ => none

/-- What a listener logs. -/
def heard? : Event → Option (String × Bytes)
  | .heard name packet => some (name, packet)
  | _ => none

/-- Can be seen of a console and its clock. -/
def isShown : Event → Bool
  | .print _ | .flush | .clock => true
  | _ => false

end Event

namespace Trace

/-- What happens besides reading. -/
def effects (t : Trace) : Trace := t.filter fun e => !e.isRead

theorem effects_append (s t : Trace) : (s ++ t).effects = s.effects ++ t.effects :=
  List.filter_append ..

def reads (t : Trace) : Nat := t.countP Event.isRead

def written (t : Trace) : List Bytes := t.filterMap Event.written?

theorem reads_append (s t : Trace) : (s ++ t).reads = s.reads + t.reads := List.countP_append

theorem written_append (s t : Trace) : (s ++ t).written = s.written ++ t.written :=
  List.filterMap_append ..

theorem written_effects (t : Trace) : t.effects.written = t.written := by
  unfold effects written
  rw [List.filterMap_filter]
  congr 1
  funext e
  cases e <;> rfl

/-- An event in the one or the other of two traces. -/
theorem split_append {s t u v : Trace} {e : Event} (h : s ++ t = u ++ e :: v) :
    (∃ v', s = u ++ e :: v') ∨ ∃ u', u = s ++ u' ∧ t = u' ++ e :: v := by
  rcases List.append_eq_append_iff.1 h with ⟨a, rfl, ht⟩ | ⟨b, rfl, hv⟩
  · exact .inr ⟨a, rfl, ht⟩
  · rcases List.cons_eq_append_iff.1 hv with ⟨rfl, ht⟩ | ⟨b', rfl, -⟩
    · exact .inr ⟨[], by simp, ht⟩
    · exact .inl ⟨b', rfl⟩

theorem notices_effects (t : Trace) : t.effects.notices = t.notices := by
  unfold effects notices
  rw [List.filterMap_filter]
  congr 1
  funext e
  cases e <;> rfl

theorem printed_append (s t : Trace) : (s ++ t).printed = s.printed ++ t.printed := by
  rw [printed, List.filterMap_append, String.join_append, printed, printed]

theorem notices_append (s t : Trace) : (s ++ t).notices = s.notices ++ t.notices :=
  List.filterMap_append ..

theorem printed_map_print (texts : List String) :
    printed (texts.map .print) = String.join texts := by
  rw [printed, List.filterMap_map]
  exact congrArg String.join List.filterMap_some

def shown (t : Trace) : Trace := t.filter Event.isShown

theorem shown_append (s t : Trace) : (s ++ t).shown = s.shown ++ t.shown := List.filter_append ..

theorem printed_shown (t : Trace) : t.shown.printed = t.printed := by
  unfold shown printed
  rw [List.filterMap_filter]
  congr 2
  funext e
  cases e <;> rfl

theorem count_clock_shown (t : Trace) : t.shown.count .clock = t.count .clock :=
  List.count_filter rfl

theorem notices_of_shown {t : Trace} (h : ∀ e ∈ t, e.isShown) : t.notices = [] := by
  refine List.filterMap_eq_nil_iff.2 fun e he => ?_
  have hshown := h e he
  cases e <;> first | rfl | simp [Event.isShown] at hshown

theorem shown_of_all {t : Trace} (h : ∀ e ∈ t, e.isShown) : t.shown = t := List.filter_eq_self.2 h

theorem shown_eq_nil {t : Trace} (h : ∀ e ∈ t, ¬ e.isShown) : t.shown = [] :=
  List.filter_eq_nil_iff.2 h

end Trace

namespace Act

theorem fail_ne_ok {fault : Fault} {s : σ} {a : α} :
    ((fail fault : Act σ α) s).result ≠ .ok a := nofun

theorem ok_of_bind {x : Act σ α} {f : α → Act σ β} {s : σ} {b : β}
    (h : ((x >>= f) s).result = .ok b) :
    ∃ a, (x s).result = .ok a ∧ (f a (x s).state).result = .ok b := by
  rw [run_bind] at h
  cases ho : x s with
  | mk result s' t =>
    rw [ho] at h
    cases result with
    | error fault => exact nomatch h
    | ok a => exact ⟨a, rfl, h⟩

theorem bind_of_result {x : Act σ α} {s : σ} {a : α} (h : (x s).result = .ok a) (f : α → Act σ β) :
    (x >>= f) s = (f a (x s).state).after (x s).trace :=
  bind_ok (h ▸ rfl : x s = ⟨.ok a, (x s).state, (x s).trace⟩) f

theorem bind_congr_left {x y : Act σ α} {s : σ} (h : x s = y s) (f : α → Act σ β) :
    (x >>= f) s = (y >>= f) s := by
  rw [run_bind, run_bind, h]

theorem each_map (f : β → Act σ Unit) (g : α → β) (data : List α) :
    Act.each f (data.map g) = Act.each (fun a => f (g a)) data := by
  induction data with
  | nil => rfl
  | cons a rest ih => rw [List.map_cons, Act.each, Act.each, ih]

/-- Leaves events with `P` only, in whatever state it runs. -/
def Only (P : Event → Prop) (x : Act σ α) : Prop := ∀ s, ∀ e ∈ (x s).trace, P e

namespace Only
variable {P : Event → Prop}

theorem pure (a : α) : Only P (Pure.pure a : Act σ α) := fun _ _ he => absurd he List.not_mem_nil

theorem fail (fault : Fault) : Only P (Act.fail fault : Act σ α) :=
  fun _ _ he => absurd he List.not_mem_nil

theorem look (f : σ → α) : Only P (Act.look f) := fun _ _ he => absurd he List.not_mem_nil

theorem update (f : σ → σ) : Only P (Act.update f) := fun _ _ he => absurd he List.not_mem_nil

theorem emit {event : Event} (h : P event) : Only P (Act.emit event : Act σ Unit) :=
  fun _ _ he => List.mem_singleton.1 he ▸ h

theorem lift (r : Except Fault α) : Only P (Act.lift r : Act σ α) := by
  cases r with
  | ok a => exact pure a
  | error fault => exact fail fault

theorem attempt {x : Act σ α} (h : Only P x) : Only P (Act.attempt x) := h

theorem bind {x : Act σ α} {f : α → Act σ β} (h : Only P x) (hf : ∀ a, Only P (f a)) :
    Only P (x >>= f) := by
  intro s e he
  have hx := h s
  rw [run_bind] at he
  cases hr : x s with
  | mk result s' t =>
    rw [hr] at he hx
    cases result with
    | error fault => exact hx e he
    | ok a =>
      rcases List.mem_append.1 he with hfirst | hrest
      · exact hx e hfirst
      · exact hf a s' e hrest

theorem each {f : α → Act σ Unit} (h : ∀ a, Only P (f a)) (data : List α) :
    Only P (Act.each f data) := by
  induction data with
  | nil => exact pure ()
  | cons a rest ih => exact bind (h a) fun _ => ih

end Only
end Act
end MoteLink
