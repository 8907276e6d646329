import MoteLink.Link.Recording
import MoteLink.Proofs.Trace

/-! Connections counted along a trace. Each dial takes the next entry of a recording, and a close
ends a connection. `counts` tells which of the entries open one that has to be closed again; a trace
is tidy if there is never more than one of these, and none at its end. -/

namespace MoteLink

def Event.isDial : Event → Bool
  | .dialPort .. | .dialHost .. => true
  | _ => false

def Dial.isAccepted : Dial → Bool
  | accepted .. => true
  | refused _ => false

namespace Trace

def dials (t : Trace) : Nat := t.countP Event.isDial

/-- The connections open after some events. -/
def live (counts : Dial → Bool) (recording : Recording) (t : Trace) : Int :=
  (recording.take t.dials).countP counts - (t.count .close : Int)

/-- Neither opens nor closes a connection. -/
def Still (t : Trace) : Prop := ∀ e ∈ t, e.isDial = false ∧ e ≠ .close

structure Tidy (counts : Dial → Bool) (recording : Recording) (t : Trace) : Prop where
  single : ∀ u v, t = u ++ v → 0 ≤ live counts recording u ∧ live counts recording u ≤ 1
  settled : live counts recording t = 0

theorem dials_append (s t : Trace) : (s ++ t).dials = s.dials + t.dials := List.countP_append

theorem Still.nil : Still [] := fun _ he => absurd he List.not_mem_nil

theorem Still.single {e : Event} (dial : e.isDial = false) (close : e ≠ .close) : Still [e] := by
  intro e' he
  rw [List.mem_singleton.1 he]
  exact ⟨dial, close⟩

theorem Still.append {s t : Trace} (hs : s.Still) (ht : t.Still) : (s ++ t).Still := by
  intro e he
  rcases List.mem_append.1 he with hfirst | hrest
  · exact hs e hfirst
  · exact ht e hrest

theorem Still.left {u v : Trace} (h : (u ++ v).Still) : u.Still :=
  fun e he => h e (List.mem_append_left _ he)

theorem Still.dials {t : Trace} (h : t.Still) : t.dials = 0 :=
  List.countP_eq_zero.2 fun e he => by simp [(h e he).1]

section
variable (counts : Dial → Bool) (recording : Recording)

theorem live_append (s t : Trace) :
    live counts recording (s ++ t) =
      live counts recording s + live counts (recording.drop s.dials) t := by
  unfold live
  rw [dials_append, List.take_add, List.countP_append, List.count_append]
  omega

theorem Still.live {t : Trace} (h : t.Still) : live counts recording t = 0 := by
  have hclose : t.count .close = 0 := List.count_eq_zero.2 fun hm => (h _ hm).2 rfl
  rw [Trace.live, h.dials, hclose]
  rfl

theorem Still.tidy {t : Trace} (h : t.Still) : Tidy counts recording t := by
  refine ⟨fun u v huv => ?_, h.live counts recording⟩
  rw [Still.live counts recording (huv ▸ h).left]
  decide

end

section
variable {counts : Dial → Bool} {recording : Recording}

theorem Tidy.append {s t : Trace} (hs : Tidy counts recording s)
    (ht : Tidy counts (recording.drop s.dials) t) : Tidy counts recording (s ++ t) := by
  refine ⟨fun u v huv => ?_, ?_⟩
  · rcases List.append_eq_append_iff.1 huv with ⟨a, rfl, hrest⟩ | ⟨b, hfirst, -⟩
    · rw [live_append, hs.settled, Int.zero_add]
      exact ht.single a v hrest
    · exact hs.single u b hfirst
  · rw [live_append, hs.settled, ht.settled, Int.add_zero]

variable {e : Event} (dial : e.isDial = true) {t : Trace} (still : t.Still)
include dial

theorem dials_dial : Trace.dials (e :: t) = t.dials + 1 := List.countP_cons_of_pos dial

include still

theorem live_dial : live counts recording (e :: t) = (recording.take 1).countP counts := by
  have hclose : (e :: t).count .close = 0 := by
    refine List.count_eq_zero.2 fun hm => ?_
    rcases List.mem_cons.1 hm with rfl | hrest
    · exact nomatch dial
    · exact (still _ hrest).2 rfl
  rw [live, dials_dial dial, still.dials, hclose]
  exact Int.sub_zero _

theorem tidy_dial (uncounted : (recording.take 1).countP counts = 0) :
    Tidy counts recording (e :: t) := by
  refine ⟨fun u v huv => ?_, by rw [live_dial dial still, uncounted]; rfl⟩
  rcases List.cons_eq_append_iff.1 huv with ⟨rfl, -⟩ | ⟨u', rfl, rfl⟩
  · exact (Still.nil.tidy counts recording).single [] [] rfl
  · rw [live_dial dial still.left, uncounted]
    decide

theorem tidy_dial_close (counted : (recording.take 1).countP counts = 1) :
    Tidy counts recording (e :: t ++ [.close]) := by
  have hclose : live counts recording (e :: t ++ [.close]) = 0 := by
    rw [live_append, live_dial dial still, counted]
    rfl
  -- the connection is open from behind the dial up to the close
  refine ⟨fun u v huv => ?_, hclose⟩
  rcases List.append_eq_append_iff.1 huv with ⟨a, hu, ha⟩ | ⟨b, hfirst, -⟩
  · rcases List.cons_eq_append_iff.1 ha with ⟨rfl, -⟩ | ⟨a', rfl, hnil⟩
    · rw [hu, List.append_nil, live_dial dial still, counted]
      decide
    · rw [hu, (List.append_eq_nil_iff.1 hnil.symm).1, hclose]
      decide
  · rcases List.cons_eq_append_iff.1 hfirst with ⟨rfl, -⟩ | ⟨u', rfl, rfl⟩
    · exact (Still.nil.tidy counts recording).single [] [] rfl
    · rw [live_dial dial still.left, counted]
      decide

end
end Trace
end MoteLink
