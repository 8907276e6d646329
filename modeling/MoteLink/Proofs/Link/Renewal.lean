import MoteLink.Link.Session
import MoteLink.Proofs.Agreement
import MoteLink.Proofs.Link.Packets

/-! What a link that carries a stream remembers of earlier connections once it is open again, which
is nothing. Nor does it matter to any step whether a stop was asked for: that is the reader's
concern alone. Main statement: `works_renewed`. -/

namespace MoteLink.Link

/-- The same but for whether a stop was asked for. -/
def Alike (l m : Link) : Prop := ∃ stopping, m = { l with stopping }

theorem respects_close : Act.Respects Alike close := by
  rintro l _ ⟨stopping, rfl⟩
  unfold close
  dsimp only
  split <;> exact ⟨rfl, rfl, stopping, rfl⟩

theorem respects_requestStop : Act.Respects Alike requestStop :=
  .bind (.update fun _ _ ⟨_, h⟩ => ⟨true, by rw [h]⟩) fun _ => respects_close

theorem respects_clear : Act.Respects Alike clear :=
  .update fun _ _ ⟨stopping, h⟩ => ⟨stopping, by rw [h]⟩

theorem respects_dial : Act.Respects Alike dial := by
  rintro l _ ⟨stopping, rfl⟩
  unfold dial
  dsimp only
  split <;> exact ⟨rfl, rfl, stopping, rfl⟩

theorem respects_take (size : Nat) (answer : Answer) : Act.Respects Alike (take size answer) := by
  cases answer with
  | chunk data =>
    rintro l _ ⟨stopping, rfl⟩
    refine ⟨rfl, rfl, stopping, ?_⟩
    simp only [take, unread]
    split <;> rfl
  | fails fault => exact .fail fault
  | stops fault => exact .bind respects_requestStop fun _ => .fail fault

theorem respects_receive (size : Nat) : Act.Respects Alike (receive size) := by
  rintro l _ ⟨stopping, rfl⟩
  unfold receive
  dsimp only
  split
  · exact ⟨rfl, rfl, stopping, rfl⟩
  · exact ⟨rfl, rfl, stopping, rfl⟩
  · exact (respects_take size _ _ _ ⟨stopping, rfl⟩).after _

theorem respects_readPort : Act.Respects Alike readPort := by
  rintro l _ ⟨stopping, rfl⟩
  unfold readPort
  dsimp only
  split
  · exact ⟨rfl, rfl, stopping, rfl⟩
  · exact ⟨rfl, rfl, stopping, rfl⟩
  · exact (respects_take _ _ _ _ ⟨stopping, rfl⟩).after _

theorem respects_describe : Act.Respects Alike (Act.look describe) :=
  .look fun _ _ ⟨_, h⟩ => by rw [h]; rfl

theorem respects_receiveSome : Act.Respects Alike receiveSome := by
  refine .bind (respects_receive 4096) fun data => ?_
  cases data with
  | nil => exact .bind respects_describe fun _ => .fail _
  | cons b data => exact .pure _

theorem respects_receiveExactly (size : Nat) : Act.Respects Alike (receiveExactly size) := by
  -- by the bytes still wanted, as the reads go
  induction size using Nat.strongRecOn with
  | ind size ih =>
    intro l m h
    by_cases hsize : size = 0
    · rw [receiveExactly, receiveExactly, if_pos hsize, if_pos hsize]
      exact ⟨rfl, rfl, h⟩
    · have hread := respects_receive size l m h
      rw [receiveExactly, receiveExactly, if_neg hsize, if_neg hsize]
      cases hl : receive size l with
      | mk result l' t =>
        rw [hl] at hread
        obtain ⟨m', hm, halike⟩ := hread.other
        rw [hm]
        rcases result with fault | (_ | ⟨b, data⟩)
        · exact ⟨rfl, rfl, halike⟩
        · obtain ⟨stopping, rfl⟩ := halike
          exact ⟨rfl, rfl, stopping, rfl⟩
        · exact ((ih (size - (data.length + 1)) (by omega) l' m' halike).map _).after t

theorem respects_write (data : Bytes) : Act.Respects Alike (write data) := by
  rintro l _ ⟨stopping, rfl⟩
  unfold write
  dsimp only
  split <;> exact ⟨rfl, rfl, stopping, rfl⟩

theorem respects_fetch : Act.Respects Alike fetch := by
  rintro l _ ⟨stopping, rfl⟩
  unfold fetch
  dsimp only
  split
  · exact respects_readPort _ _ ⟨stopping, rfl⟩
  · exact respects_receiveSome _ _ ⟨stopping, rfl⟩
  · exact ⟨rfl, rfl, stopping, rfl⟩

theorem nextBody_of_fault {l l' : Link} {fault : Fault} {t : Trace}
    (waiting : (l.receiver.scan l.pending).body = none)
    (fetched : fetch l.advance = ⟨.error fault, l', t⟩) :
    nextBody l = ⟨.error fault, l', l.advanceTrace ++ t⟩ := by
  rw [nextBody]
  simp only [waiting]
  split <;> simp_all

theorem nextBody_of_fetch {l l' : Link} {data : Bytes} {t : Trace}
    (waiting : (l.receiver.scan l.pending).body = none)
    (fetched : fetch l.advance = ⟨.ok data, l', t⟩) :
    nextBody l = (nextBody { l' with pending := data }).after (l.advanceTrace ++ t) := by
  rw [nextBody]
  simp only [waiting]
  split <;> simp_all

theorem respects_nextBody : Act.Respects Alike nextBody := by
  intro l m h
  have hscan {l m : Link} (h : Alike l m) :
      m.receiver.scan m.pending = l.receiver.scan l.pending ∧ m.advanceTrace = l.advanceTrace ∧
        Alike l.advance m.advance := by
    obtain ⟨stopping, rfl⟩ := h
    exact ⟨rfl, rfl, stopping, rfl⟩
  fun_induction nextBody l generalizing m with
  | case1 l body hb =>
    obtain ⟨stopping, rfl⟩ := h
    rw [nextBody]
    simp only [hb]
    exact ⟨rfl, rfl, stopping, rfl⟩
  | case2 l hb fault l' t hf =>
    obtain ⟨hsame, htrace, hadvance⟩ := hscan h
    have hfetch := respects_fetch l.advance m.advance hadvance
    rw [hf] at hfetch
    obtain ⟨m', hm, halike⟩ := hfetch.other
    rw [nextBody_of_fault (hsame ▸ hb) hm, htrace]
    exact ⟨rfl, rfl, halike⟩
  | case3 l hb data l' t hf ih =>
    obtain ⟨hsame, htrace, hadvance⟩ := hscan h
    have hfetch := respects_fetch l.advance m.advance hadvance
    rw [hf] at hfetch
    obtain ⟨m', hm, stopping, rfl⟩ := hfetch.other
    rw [nextBody_of_fetch (hsame ▸ hb) hm, htrace]
    exact (ih _ ⟨stopping, rfl⟩).after _

theorem respects_nextPacket : Act.Respects Alike nextPacket := by
  intro l m h
  have hother {l l' m : Link} {result : Except Fault Bytes} {t : Trace}
      (hb : nextBody l = ⟨result, l', t⟩) (h : Alike l m) :
      ∃ m', nextBody m = ⟨result, m', t⟩ ∧ Alike l' m' := by
    have hbody := respects_nextBody l m h
    rw [hb] at hbody
    exact hbody.other
  fun_induction nextPacket l generalizing m with
  | case1 l fault l' t hb =>
    obtain ⟨m', hm, halike⟩ := hother hb h
    rw [nextPacket_of_fault hm]
    exact ⟨rfl, rfl, halike⟩
  | case2 l l' t hb =>
    obtain ⟨m', hm, halike⟩ := hother hb h
    rw [nextPacket_of_empty hm]
    exact ⟨rfl, rfl, halike⟩
  | case3 l protocol rest l' t hb data hc =>
    obtain ⟨m', hm, halike⟩ := hother hb h
    rw [nextPacket_of_body hm, hc]
    exact ⟨rfl, rfl, halike⟩
  | case4 l protocol rest l' t hb sequence data hc =>
    obtain ⟨m', hm, halike⟩ := hother hb h
    rw [nextPacket_of_body hm, hc]
    exact .after (Act.Respects.bind (respects_write _) (fun _ => .pure data) l' m' halike) t
  | case5 l protocol rest l' t hb p hc ih =>
    obtain ⟨m', hm, halike⟩ := hother hb h
    rw [nextPacket_of_body hm, hc]
    exact (ih m' halike).after _

theorem respects_readMeasured : Act.Respects Alike readMeasured := by
  refine .bind (respects_receiveExactly 1) fun head => ?_
  split
  · exact respects_receiveExactly _
  · exact .fail _

theorem respects_read : Act.Respects Alike read := by
  rintro l _ ⟨stopping, rfl⟩
  unfold read
  dsimp only
  split
  · exact respects_nextPacket _ _ ⟨stopping, rfl⟩
  · exact respects_nextPacket _ _ ⟨stopping, rfl⟩
  · exact respects_readMeasured _ _ ⟨stopping, rfl⟩

theorem respects_greet : Act.Respects Alike greet := by
  refine .bind (respects_write version) fun _ => .bind (respects_receiveExactly 2) fun answer => ?_
  split
  · exact .bind respects_close fun _ => .bind respects_describe fun _ => .fail _
  · exact .pure ()

theorem respects_endpoint : Act.Respects Alike (Act.look (·.endpoint)) :=
  .look fun _ _ ⟨_, h⟩ => by rw [h]

theorem respects_connect : Act.Respects Alike connect := by
  refine .bind respects_endpoint fun endpoint => ?_
  cases endpoint with
  | serial device baud | network host port =>
    exact .bind respects_clear fun _ => .bind (.emit _) fun _ => respects_dial
  | forwarder host port =>
    exact .bind (.emit _) fun _ => .bind respects_dial fun _ => respects_greet

theorem respects_perform (step : Step) : Act.Respects Alike (perform step) := by
  refine .bind respects_endpoint fun endpoint => ?_
  split
  · have some {x : Act Link Bytes} (h : Act.Respects Alike x) : Act.Respects Alike (some <$> x) :=
      .map h some
    cases step with
    | connect => exact .bind respects_connect fun _ => .pure none
    | close => exact .bind respects_close fun _ => .pure none
    | nextPacket => exact some respects_read
    | nextBody => exact some respects_nextBody
    | fetch => exact some respects_fetch
    | receiveSome => exact some respects_receiveSome
    | receiveExactly size => exact some (respects_receiveExactly _)
    | write data => exact .bind (respects_write data) fun _ => .pure none
  · exact .fail _

/-- What each of some steps comes to, done one after another whether they fault or not. -/
def works : List Step → Link → List (Except Fault (Option Bytes) × Trace)
  | [], _ => []
  | step :: rest, l =>
    let o := perform step l
    (o.result, o.trace) :: works rest o.state

theorem works_alike (steps : List Step) {l m : Link} (h : Alike l m) :
    works steps l = works steps m := by
  induction steps generalizing l m with
  | nil => rfl
  | cons step rest ih =>
    have hstep := respects_perform step l m h
    rw [works, works, hstep.result, hstep.trace, ih hstep.state]

/-- A link that carries a stream and has come to be open, whatever was done with it before, goes on
as one that has never been used and is opened on the same connection. -/
theorem works_renewed {l l' : Link} {t : Trace} (framed : l.endpoint.Framed)
    (opened : connect l = ⟨.ok (), l', t⟩) :
    ∃ fresh, connect { endpoint := l.endpoint, recording := l.recording } = ⟨.ok (), fresh, t⟩ ∧
      ∀ steps, works steps l' = works steps fresh := by
  have hfresh : connect { endpoint := l.endpoint, recording := l.recording } =
      ⟨.ok (), { l' with stopping := false }, t⟩ := by
    rw [connect_eq framed] at opened
    rw [connect_eq (l := { endpoint := l.endpoint, recording := l.recording }) framed]
    cases hrecording : l.recording with
    | nil => simp [dial, hrecording, Outcome.after] at opened
    | cons d later =>
      cases d with
      | refused fault => simp [dial, hrecording, Outcome.after] at opened
      | accepted answers =>
        simp only [dial, hrecording] at opened
        obtain ⟨-, rfl, rfl⟩ := Outcome.mk.inj opened
        rfl
  exact ⟨_, hfresh, fun steps => works_alike steps ⟨false, rfl⟩⟩

end MoteLink.Link
