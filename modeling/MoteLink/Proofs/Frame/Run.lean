import MoteLink.Frame.Receiver

/-! Runs of a receiver: what they hand out and what they drop, over streams in parts. -/

namespace MoteLink

/-- The signals that say something. -/
def Signal.loud (signals : List Signal) : List Signal := signals.filter (· ≠ .quiet)

def Signal.bodies (signals : List Signal) : List Bytes := signals.filterMap Signal.body?

def Signal.drops (signals : List Signal) : List Frame.Drop := signals.filterMap Signal.drop?

namespace Signal

theorem loud_append (a b : List Signal) : loud (a ++ b) = loud a ++ loud b := List.filter_append ..

theorem bodies_cons (s : Signal) (rest : List Signal) :
    bodies (s :: rest) = s.body?.toList ++ bodies rest := by
  cases s <;> rfl

theorem bodies_append (a b : List Signal) : bodies (a ++ b) = bodies a ++ bodies b :=
  List.filterMap_append ..

theorem drops_append (a b : List Signal) : drops (a ++ b) = drops a ++ drops b :=
  List.filterMap_append ..

theorem bodies_loud (signals : List Signal) : bodies (loud signals) = bodies signals := by
  unfold bodies loud
  rw [List.filterMap_filter]
  congr 1
  funext s
  cases s <;> rfl

end Signal

namespace Receiver
open Signal

/-- The bodies that a fresh receiver hands out, in order. -/
def decode (stream : Bytes) : List Bytes := bodies (({} : Receiver).run stream).2

theorem run_cons (r : Receiver) (b : UInt8) (rest : Bytes) :
    r.run (b :: rest) =
      (((r.step b).1.run rest).1, (r.step b).2 :: ((r.step b).1.run rest).2) := rfl

theorem run_append (r : Receiver) (a b : Bytes) :
    r.run (a ++ b) = (((r.run a).1.run b).1, (r.run a).2 ++ ((r.run a).1.run b).2) := by
  induction a generalizing r with
  | nil => rfl
  | cons x a ih => simp only [List.cons_append, run, ih]

/-- A body is the content without the two bytes of its checksum, and has a byte at least. -/
theorem length_of_judge {content body : Bytes} (h : Frame.judge content = .ok body) :
    1 ≤ body.length ∧ body.length + 2 = content.length := by
  by_cases hlen : content.length < 3
  · simp [Frame.judge, hlen] at h
  · simp only [Frame.judge, hlen, if_false] at h
    split at h
    · split at h
      · obtain rfl := Except.ok.inj h
        rw [List.length_take]
        omega
      · simp at h
    · simp at h

theorem judge_of_finish {r : Receiver} {body : Bytes} (h : r.finish.2 = .body body) :
    Frame.judge r.content = .ok body := by
  simp only [finish] at h
  split at h
  · rename_i hj
    exact Signal.body.inj h ▸ hj
  · simp at h

theorem collect_ne_body (r : Receiver) (b : UInt8) (body : Bytes) :
    (r.collect b).2 ≠ .body body := by
  simp only [collect]
  split <;> simp

/-- A step hands out what the content before it is judged to hold. -/
theorem judge_of_step {r : Receiver} {b : UInt8} {body : Bytes} (h : (r.step b).2 = .body body) :
    Frame.judge r.content = .ok body := by
  unfold step at h
  split at h
  · simp at h
  · split at h
    · split at h
      · simp at h
      · exact judge_of_finish h
    · split at h
      · simp at h
      · exact absurd h (collect_ne_body _ _ _)
  · split at h
    · simp at h
    · exact absurd h (collect_ne_body _ _ _)

/-- No receiver hands out an empty body. -/
theorem ne_nil_of_mem_bodies {r : Receiver} {data body : Bytes} (h : body ∈ bodies (r.run data).2) :
    body ≠ [] := by
  induction data generalizing r with
  | nil => simp [run, bodies] at h
  | cons b data ih =>
    rw [run_cons, bodies_cons, List.mem_append] at h
    rcases h with h | h
    · cases hs : (r.step b).2 with
      | body found =>
        obtain rfl : body = found := by simpa [hs, body?] using h
        exact List.length_pos_iff.1 (length_of_judge (judge_of_step hs)).1
      | quiet => simp [hs, body?] at h
      | dropped cause => simp [hs, body?] at h
    · exact ih h

end Receiver
end MoteLink
