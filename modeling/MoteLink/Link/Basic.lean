import MoteLink.Act
import MoteLink.Endpoint.Basic
import MoteLink.Frame.Receiver
import MoteLink.Link.Recording

/-! Links: an endpoint, the connection held, and the bytes read from it but not used yet. A read
takes what the recording answers, and a write what is recorded of it; `weight` bounds how much is
left to read, so that reading until something complete has come ends. -/

namespace MoteLink

structure Link where
  endpoint : Endpoint
  recording : Recording := []
  connection : Option (List Answer) := none
  sends : List (Option Fault) := []
  receiver : Receiver := {}
  pending : Bytes := []
  stopping : Bool := false
  deriving DecidableEq, Repr

namespace Link

def describe (l : Link) : String := l.endpoint.describe

def weight (l : Link) : Nat :=
  l.pending.length + Answer.weights (l.connection.getD []) + Dial.weights l.recording

def close : Act Link Unit := fun l =>
  match l.connection with
  | none => ⟨.ok (), l, []⟩
  | some _ => ⟨.ok (), { l with connection := none }, [.close]⟩

/-- A stop closes the link at once, even while another reads from it. -/
def requestStop : Act Link Unit := do
  Act.update fun l => { l with stopping := true }
  close

/-- A new connection replaces the one held; an attempt that fails leaves that one in place. -/
def dial : Act Link Unit := fun l =>
  match l.recording with
  | [] => ⟨.error .exhausted, l, []⟩
  | .refused fault :: rest => ⟨.error fault, { l with recording := rest }, []⟩
  | .accepted answers sends :: rest =>
    ⟨.ok (), { l with recording := rest, connection := some answers, sends }, []⟩

def clear : Act Link Unit := Act.update fun l => { l with receiver := {}, pending := [] }

/-- What a read left of a chunk stands in front of the next answers. -/
def unread (data : Bytes) (l : Link) : Link :=
  if data.isEmpty then l else { l with connection := l.connection.map (.chunk data :: ·) }

def take (size : Nat) : Answer → Act Link Bytes
  | .chunk data => fun l => ⟨.ok (data.take size), l.unread (data.drop size), []⟩
  | .fails fault => Act.fail fault
  | .stops fault => do
    requestStop
    Act.fail fault

/-- One read of a socket; it gives no bytes once the recording has ended. -/
def receive (size : Nat) : Act Link Bytes := fun l =>
  match l.connection with
  | none => ⟨.error (.notConnected "recv"), l, []⟩
  | some [] => ⟨.ok [], l, [.readSocket size]⟩
  | some (answer :: rest) =>
    (take size answer { l with connection := some rest }).after [.readSocket size]

/-- One read of a serial port, of all that waits there and one byte at least. -/
def readPort : Act Link Bytes := fun l =>
  match l.connection with
  | none => ⟨.error (.notConnected "in_waiting"), l, []⟩
  | some [] => ⟨.error .deviceGone, l, [.readPort 1]⟩
  | some (answer :: rest) =>
    let size := max 1 answer.waiting
    (take size answer { l with connection := some rest }).after [.readPort size]

def receiveSome : Act Link Bytes := do
  match ← receive 4096 with
  | [] => Act.fail (.closed (← Act.look describe))
  | data => pure data

/-- Exactly `size` bytes of a socket, and no byte beyond. -/
def receiveExactly (size : Nat) : Act Link Bytes := fun l =>
  if size = 0 then ⟨.ok [], l, []⟩
  else
    match receive size l with
    | ⟨.error fault, l', t⟩ => ⟨.error fault, l', t⟩
    | ⟨.ok [], l', t⟩ => ⟨.error (.closed l'.describe), l', t⟩
    | ⟨.ok (b :: data), l', t⟩ =>
      ((receiveExactly (size - (data.length + 1)) l').map ((b :: data) ++ ·)).after t
termination_by size

/-- The fault of the next write, if that one fails. -/
def refusal (l : Link) : Option Fault := l.sends.headD none

def send (call : Event) : Act Link Unit := fun l =>
  ⟨Fault.ended l.refusal, { l with sends := l.sends.tail }, [call]⟩

/-- The call can be seen in any case, also if it fails. -/
def write (data : Bytes) : Act Link Unit := fun l =>
  match l.endpoint, l.connection with
  | .serial .., none => ⟨.error (.notConnected "write"), l, []⟩
  | _, none => ⟨.error (.notConnected "sendall"), l, []⟩
  | .serial .., some _ => send (.writePort data) l
  | _, some _ => send (.writeSocket data) l

theorem weight_pending (l : Link) (data : Bytes) :
    { l with pending := data }.weight ≤ l.weight + data.length := by
  simp only [weight]
  omega

theorem weight_close (l : Link) : (close l).state.weight ≤ l.weight := by
  unfold close
  split <;> simp [weight, Answer.weights]

/-- A read that succeeds takes more weight off the line than the bytes it gives have. -/
theorem weight_take {size : Nat} (hs : 0 < size) {a : Answer} {rest : List Answer} {l l' : Link}
    {data : Bytes} {t : Trace}
    (h : take size a { l with connection := some rest } = ⟨.ok data, l', t⟩) :
    l'.weight + data.length < { l with connection := some (a :: rest) }.weight := by
  cases a with
  | chunk whole =>
    simp only [take, Outcome.mk.injEq, Except.ok.injEq] at h
    obtain ⟨rfl, rfl, rfl⟩ := h
    by_cases hd : whole.length ≤ size
    · rw [List.drop_eq_nil_of_le hd, List.take_of_length_le hd]
      simp [unread, weight, Answer.weights, Answer.weight]
      omega
    · have hne : whole.drop size ≠ [] := by simpa using hd
      have hlen := List.length_drop (i := size) (l := whole)
      have htake := List.length_take (i := size) (l := whole)
      simp [unread, weight, hne, Answer.weights, Answer.weight] at *
      omega
  | fails fault => simp [take, Act.fail] at h
  | stops fault =>
    simp only [take] at h
    cases hr : requestStop { l with connection := some rest } with
    | mk result s u =>
      cases result with
      | ok _ => simp [Act.bind_ok hr, Act.fail, Outcome.after] at h
      | error e => simp [Act.bind_error hr] at h

theorem weight_receive {size : Nat} (hs : 0 < size) {l l' : Link} {data : Bytes} {t : Trace}
    (hd : data ≠ []) (h : receive size l = ⟨.ok data, l', t⟩) :
    l'.weight + data.length < l.weight := by
  unfold receive at h
  split at h
  · simp at h
  · simp only [Outcome.mk.injEq, Except.ok.injEq] at h
    exact absurd h.1.symm hd
  · rename_i a rest hc
    cases ht : take size a { l with connection := some rest } with
    | mk result s u =>
      simp only [ht, Outcome.after, Outcome.mk.injEq] at h
      obtain ⟨rfl, rfl, -⟩ := h
      have := weight_take hs ht
      rwa [← hc] at this

theorem weight_readPort {l l' : Link} {data : Bytes} {t : Trace}
    (h : readPort l = ⟨.ok data, l', t⟩) : l'.weight + data.length < l.weight := by
  unfold readPort at h
  split at h
  · simp at h
  · simp at h
  · rename_i a rest hc
    cases ht : take (max 1 a.waiting) a { l with connection := some rest } with
    | mk result s u =>
      simp only [ht, Outcome.after, Outcome.mk.injEq] at h
      obtain ⟨rfl, rfl, -⟩ := h
      have := weight_take (by omega) ht
      rwa [← hc] at this

theorem weight_receiveSome {l l' : Link} {data : Bytes} {t : Trace}
    (h : receiveSome l = ⟨.ok data, l', t⟩) : l'.weight + data.length < l.weight := by
  unfold receiveSome at h
  cases hr : receive 4096 l with
  | mk result s u =>
    cases result with
    | error e => simp [Act.bind_error hr] at h
    | ok d =>
      rw [Act.bind_ok hr] at h
      cases d with
      | nil => simp [Act.look, Act.fail, Outcome.after, bind, Act.bind] at h
      | cons b d =>
        simp only [pure, Act.pure, Outcome.after, Outcome.mk.injEq, Except.ok.injEq] at h
        obtain ⟨rfl, rfl, -⟩ := h
        exact weight_receive (by decide) (by simp) hr

end Link
end MoteLink
