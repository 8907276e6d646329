import MoteLink.Proofs.Link.Carrying
import MoteLink.Proofs.Link.Ledger
import MoteLink.Proofs.Link.Stream
import MoteLink.Proofs.Reader.Waning

/-! What reading, writing and closing a link does to its connection: it is let go of only by a close
that can be seen, and no more is left to read than before. -/

namespace MoteLink.Link

/-- The connections held, which are one at most. -/
def held (l : Link) : Nat := if l.connection.isSome then 1 else 0

structure Handled (l : Link) (t : Trace) (l' : Link) : Prop where
  endpoint : l'.endpoint = l.endpoint
  recording : l'.recording = l.recording
  dials : t.dials = 0
  closes : t.count .close + l'.held = l.held
  weight : l'.weight ≤ l.weight

theorem Handled.refl (l : Link) : Handled l [] l := ⟨rfl, rfl, rfl, Nat.zero_add _, Nat.le_refl _⟩

theorem Handled.trans {l l' l'' : Link} {t u : Trace} (h : Handled l t l')
    (h' : Handled l' u l'') : Handled l (t ++ u) l'' := by
  refine ⟨h'.endpoint.trans h.endpoint, h'.recording.trans h.recording, ?_, ?_,
    Nat.le_trans h'.weight h.weight⟩
  · rw [Trace.dials_append, h.dials, h'.dials]
  · have hfirst := h.closes
    have hsecond := h'.closes
    rw [List.count_append]
    omega

def handling : Act.Tracking Link := ⟨Handled, Handled.refl, Handled.trans⟩

/-- What changes neither the connections held nor what was recorded. -/
theorem Handled.still {l l' : Link} {t : Trace} (still : t.Still)
    (endpoint : l'.endpoint = l.endpoint) (recording : l'.recording = l.recording)
    (held : l'.connection.isSome = l.connection.isSome) (weight : l'.weight ≤ l.weight) :
    Handled l t l' := by
  have hclose : t.count .close = 0 := List.count_eq_zero.2 fun hm => (still _ hm).2 rfl
  refine ⟨endpoint, recording, still.dials, ?_, weight⟩
  rw [hclose, Link.held, Link.held, held, Nat.zero_add]

theorem handled_close (l : Link) : Handled l (close l).trace (close l).state := by
  have hweight := weight_close l
  unfold close at hweight ⊢
  cases hc : l.connection with
  | none => exact .refl l
  | some answers =>
    rw [hc] at hweight
    exact ⟨rfl, rfl, rfl, by simp [held, hc], hweight⟩

theorem close_unheld (l : Link) :
    ∃ t, close l = ⟨.ok (), { l with connection := none }, t⟩ := by
  obtain ⟨endpoint, recording, connection, sends, receiver, pending, stopping⟩ := l
  cases connection with
  | none => exact ⟨[], rfl⟩
  | some answers => exact ⟨[.close], rfl⟩

theorem handling_requestStop : handling.Every requestStop :=
  .bind (fun _ => .still .nil rfl rfl rfl (Nat.le_refl _)) fun _ => handled_close

theorem handled_take {size : Nat} (hs : 0 < size) {l : Link} {answer : Answer}
    {rest : List Answer} (h : l.connection = some (answer :: rest)) :
    handling.Of (take size answer { l with connection := some rest }) l := by
  have hsame : ({ l with connection := some (answer :: rest) } : Link) = l := by rw [← h]
  have hline : Handled l [] { l with connection := some rest } :=
    .still .nil rfl rfl (by rw [h]; rfl) (by simp [weight, h, Answer.weights])
  cases answer with
  | chunk data =>
    have htaken : take size (.chunk data) { l with connection := some rest } =
        ⟨.ok (data.take size), unread (data.drop size) { l with connection := some rest }, []⟩ :=
      rfl
    have hlighter := weight_take hs htaken
    rw [hsame, unread_eq] at hlighter
    have hstate : (take size (.chunk data) { l with connection := some rest }).state =
        { l with connection := some (leave (data.drop size) rest) } := unread_eq ..
    rw [Act.Tracking.Of, hstate]
    exact .still .nil rfl rfl (by rw [h]; rfl) (by omega)
  | fails fault => exact hline
  | stops fault =>
    exact hline.trans
      (Act.Tracking.Every.bind handling_requestStop (fun _ => .fail fault) _)

/-- What a read puts into the link came off the line, where it weighed more. -/
theorem Handled.waits {l l' : Link} {data : Bytes} {t : Trace}
    (fetched : fetch l = ⟨.ok data, l', t⟩) (h : Handled l t l') :
    Handled l t { l' with pending := data } := by
  have hlighter := weight_fetch fetched
  have hpending := weight_pending l' data
  exact { h with weight := by omega }

theorem carries_handling : Carries handling where
  close := handled_close
  receive size hs := by
    intro l
    have hread : Trace.Still [.readSocket size] := .single rfl (by simp)
    rw [receive]
    split
    · exact .refl l
    · exact .still hread rfl rfl rfl (Nat.le_refl _)
    · rename_i answer rest hc
      exact (Handled.still hread rfl rfl rfl (Nat.le_refl _)).trans (handled_take hs hc)
  readPort := by
    intro l
    have hread (size : Nat) : Trace.Still [.readPort size] := .single rfl (by simp)
    rw [readPort]
    split
    · exact .refl l
    · exact .still (hread 1) rfl rfl rfl (Nat.le_refl _)
    · rename_i answer rest hc
      exact (Handled.still (hread _) rfl rfl rfl (Nat.le_refl _)).trans
        (handled_take (by omega) hc)
  write data := by
    intro l
    have hwrite : Trace.Still [.writePort data] ∧ Trace.Still [.writeSocket data] :=
      ⟨.single rfl (by simp), .single rfl (by simp)⟩
    rw [write]
    split
    · exact .refl l
    · exact .refl l
    · exact .still hwrite.1 rfl rfl rfl (Nat.le_refl _)
    · exact .still hwrite.2 rfl rfl rfl (Nat.le_refl _)
  advance l := by
    refine .still (fun e he => ?_) rfl rfl rfl (weight_advance l)
    obtain ⟨cause, -, rfl⟩ := List.mem_map.1 he
    exact ⟨rfl, by simp⟩
  waits := Handled.waits
  foreign _ _ := .still (.single rfl (by simp)) rfl rfl rfl (Nat.le_refl _)

end MoteLink.Link
