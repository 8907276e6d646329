import MoteLink.Link.Forwarder
import MoteLink.Proofs.Tracking

/-! Relations between a link before and after and what happens in between. One that holds of single
calls on a connection holds of all reading, and of the greeting: `Carries`. The least of these is
that a link leaves calls and notices only, and so nothing that is seen or heard elsewhere. -/

namespace MoteLink

/-- A call on a connection, or a notice. -/
def Event.isTraffic : Event → Bool
  | .dialPort .. | .dialHost .. | .readPort _ | .readSocket _ | .writePort _ | .writeSocket _
  | .close | .notice _ => true
  | _ => false

theorem Trace.shown_of_traffic {t : Trace} (h : ∀ e ∈ t, e.isTraffic) : t.shown = [] := by
  refine Trace.shown_eq_nil fun e he hshown => ?_
  have htraffic := h e he
  cases e <;> simp [Event.isTraffic, Event.isShown] at htraffic hshown

namespace Link

/-- Holds of what is done with a link call by call. What a read brings waits in the link then, which
is a case of its own for a relation that looks at what waits there. -/
structure Carries (k : Act.Tracking Link) : Prop where
  close : k.Every close
  receive : ∀ size, 0 < size → k.Every (receive size)
  readPort : k.Every readPort
  write : ∀ data, k.Every (write data)
  advance : ∀ l, k.rel l l.advanceTrace l.advance
  waits : ∀ {l l' data t}, fetch l = ⟨.ok data, l', t⟩ → k.rel l t l' →
    k.rel l t { l' with pending := data }
  foreign : ∀ l protocol, k.rel l [.notice (.foreign protocol)] l

section
variable {k : Act.Tracking Link} (h : Carries k)
include h

theorem Carries.receiveSome : k.Every receiveSome := by
  refine .bind (h.receive 4096 (by decide)) fun data => ?_
  cases data with
  | nil => exact .bind (.look _) fun _ => .fail _
  | cons b data => exact .pure _

theorem Carries.receiveExactly (size : Nat) : k.Every (receiveExactly size) := by
  intro l
  fun_induction Link.receiveExactly size l with
  | case1 l => exact k.refl l
  | case2 size l hs fault l' t hr | case3 size l hs l' t hr =>
    have hreceive := h.receive size (Nat.pos_of_ne_zero hs) l
    rwa [hr] at hreceive
  | case4 size l hs b data l' t hr ih =>
    have hreceive := h.receive size (Nat.pos_of_ne_zero hs) l
    rw [hr] at hreceive
    exact k.trans hreceive ih

theorem Carries.fetch : k.Every fetch := by
  intro l
  rw [Link.fetch]
  split
  · exact h.readPort l
  · exact h.receiveSome l
  · exact k.refl l

theorem Carries.nextBody : k.Every nextBody := by
  intro l
  fun_induction Link.nextBody l with
  | case1 l body hb => exact h.advance l
  | case2 l hb fault l' t hf =>
    have hfetch := h.fetch l.advance
    rw [hf] at hfetch
    exact k.trans (h.advance l) hfetch
  | case3 l hb data l' t hf ih =>
    have hfetch := h.fetch l.advance
    rw [hf] at hfetch
    exact k.trans (k.trans (h.advance l) (h.waits hf hfetch)) ih

theorem Carries.nextPacket : k.Every nextPacket := by
  intro l
  have hnext {l l' : Link} {result : Except Fault Bytes} {t : Trace}
      (hb : Link.nextBody l = ⟨result, l', t⟩) : k.rel l t l' := by
    have hbody := h.nextBody l
    rwa [hb] at hbody
  fun_induction Link.nextPacket l with
  | case1 l fault l' t hb => exact hnext hb
  | case2 l l' t hb => exact hnext hb
  | case3 l protocol rest l' t hb data hc => exact hnext hb
  | case4 l protocol rest l' t hb sequence data hc =>
    exact k.trans (hnext hb) (Act.Tracking.Every.bind (h.write _) (fun _ => .pure data) l')
  | case5 l protocol rest l' t hb p hc ih =>
    exact k.trans (k.trans (hnext hb) (h.foreign l' p)) ih

theorem Carries.readMeasured : k.Every readMeasured := by
  refine .bind (h.receiveExactly 1) fun head => ?_
  split
  · exact h.receiveExactly _
  · exact .fail _

theorem Carries.read : k.Every read := by
  intro l
  rw [Link.read]
  split
  · exact h.nextPacket l
  · exact h.nextPacket l
  · exact h.readMeasured l

theorem Carries.greet : k.Every greet := by
  refine .bind (h.write version) fun _ => .bind (h.receiveExactly 2) fun answer => ?_
  split
  · exact .bind h.close fun _ => .bind (.look _) fun _ => .fail _
  · exact .pure ()

end

def trading : Act.Tracking Link where
  rel _ t _ := ∀ e ∈ t, e.isTraffic
  refl _ := fun _ he => absurd he List.not_mem_nil
  trans h h' := List.forall_mem_append.2 ⟨h, h'⟩

theorem trading_single {l l' : Link} {e : Event} (h : e.isTraffic) : trading.rel l [e] l' :=
  List.forall_mem_singleton.2 h

theorem trading_close : trading.Every close := by
  intro l
  rw [close]
  split
  · exact trading.refl l
  · exact trading_single rfl

theorem trading_take (size : Nat) (answer : Answer) : trading.Every (take size answer) := by
  cases answer with
  | chunk data => exact trading.refl
  | fails fault => exact .fail fault
  | stops fault => exact .bind (.bind trading.refl fun _ => trading_close) fun _ => .fail fault

theorem carries_trading : Carries trading where
  close := trading_close
  receive size _ := by
    intro l
    rw [receive]
    split
    · exact trading.refl l
    · exact trading_single rfl
    · exact (trading_take size _ _).after (s := l) (trading_single rfl)
  readPort := by
    intro l
    rw [readPort]
    split
    · exact trading.refl l
    · exact trading_single rfl
    · exact (trading_take _ _ _).after (s := l) (trading_single rfl)
  write data := by
    intro l
    rw [write]
    split
    · exact trading.refl l
    · exact trading.refl l
    · exact trading_single rfl
    · exact trading_single rfl
  advance l := by
    intro e he
    obtain ⟨cause, -, rfl⟩ := List.mem_map.1 he
    rfl
  waits _ h := h
  foreign _ _ := trading_single rfl

theorem trading_connect : trading.Every connect := by
  have hdialling (e : Endpoint) : trading.Every (Act.emit (dialling e)) := fun _ =>
    trading_single (by cases e <;> rfl)
  have hdial : trading.Every dial := by
    intro l
    rw [dial]
    split <;> exact trading.refl l
  refine .bind (.look _) fun endpoint => ?_
  cases endpoint with
  | serial device baud | network host port =>
    exact .bind trading.refl fun _ => .bind (hdialling _) fun _ => hdial
  | forwarder host port =>
    exact .bind (hdialling _) fun _ => .bind hdial fun _ => carries_trading.greet

end Link
end MoteLink
