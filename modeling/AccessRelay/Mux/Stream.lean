import AccessRelay.Proto.Frame

/-!
# Streams

`internal/mux/stream.go`: the state of one multiplexed stream and the critical sections of its
methods. Each definition here is what one method does while it holds the stream's mutex. The
frames it sends afterwards, and the loops around a section that waits, belong to the session
model.

Windows are 32 bit counters and wrap as Go's `uint32` does.
-/

namespace AccessRelay.Mux

open Encoding Proto

/-- One logical connection multiplexed over a session. -/
structure Stream where
  id : UInt32
  buf : Bytes
  recvWindow : UInt32
  sendWindow : UInt32
  pendingCredit : UInt32
  openPayload : Bytes
  localClosed : Bool
  remoteClosed : Bool
  resetReason : Reason
  reset : Bool
  deriving DecidableEq, Repr

/-- `newStream`. -/
def newStream (id window : UInt32) : Stream where
  id := id
  buf := []
  recvWindow := window
  sendWindow := window
  pendingCredit := 0
  openPayload := []
  localClosed := false
  remoteClosed := false
  resetReason := []
  reset := false

/-- What the critical section of `Read` comes to: it waits for a signal, reports the end of the
stream, or hands out bytes, with the credit that has become worth a frame. -/
inductive ReadResult where
  | wait
  | closed (reason : Reason)
  | eof
  | bytes (data : Bytes) (credit : UInt32) (after : Stream)
  deriving DecidableEq

/-- What the critical section of `Write` comes to: it waits for credit, reports that the stream
is closed, or takes the credit for the next `n` bytes. -/
inductive WriteResult where
  | wait
  | reset (reason : Reason)
  | closed
  | take (n : Nat) (after : Stream)
  deriving DecidableEq

namespace Stream

/-- `Read` into a buffer of `length > 0` bytes. Buffered bytes come first, whatever has happened
to the stream since. -/
def read (st : Stream) (threshold : UInt32) (length : Nat) : ReadResult :=
  if st.buf = [] then
    if st.reset then .closed st.resetReason
    else if st.remoteClosed then .eof
    else .wait
  else
    let n := UInt32.ofNat (st.buf.take length).length
    let after := { st with
      buf := st.buf.drop length
      recvWindow := st.recvWindow + n
      pendingCredit := st.pendingCredit + n }
    if threshold ≤ after.pendingCredit then
      .bytes (st.buf.take length) after.pendingCredit { after with pendingCredit := 0 }
    else .bytes (st.buf.take length) 0 after

/-- One round of the loop of `Write`, with `remaining` bytes left to send. -/
def write (st : Stream) (maxFrame : UInt32) (remaining : Nat) : WriteResult :=
  if st.reset then .reset st.resetReason
  else if st.localClosed then .closed
  else if st.sendWindow = 0 then .wait
  else
    let n := if st.sendWindow < UInt32.ofNat remaining then st.sendWindow.toNat else remaining
    let n := if maxFrame < UInt32.ofNat n then maxFrame.toNat else n
    .take n { st with sendWindow := st.sendWindow - UInt32.ofNat n }

/-- `closeWith`: mark the local side closed, unless there is nothing left to close. -/
def closeLocal (st : Stream) : Option Stream :=
  if st.localClosed ∨ st.reset then none else some { st with localClosed := true }

/-- `Reset`: abort both directions and drop what is buffered, unless that has happened. -/
def abort (st : Stream) (r : Reason) : Option Stream :=
  if st.reset then none
  else some { st with
    reset := true, resetReason := r, localClosed := true, remoteClosed := true, buf := [] }

/-- `deliver`: hand received bytes to the stream; `none` is the flow-control error. Late data on
a finished stream is dropped. -/
def deliver (st : Stream) (b : Bytes) : Option Stream :=
  if st.reset ∨ st.remoteClosed then some st
  else if st.recvWindow < UInt32.ofNat b.length then none
  else some { st with
    recvWindow := st.recvWindow - UInt32.ofNat b.length, buf := st.buf ++ b }

/-- `grantCredit`: saturate rather than wrap. -/
def grantCredit (st : Stream) (n : UInt32) : Stream :=
  if 0xFFFFFFFF - n < st.sendWindow then { st with sendWindow := 0xFFFFFFFF }
  else { st with sendWindow := st.sendWindow + n }

/-- The reason ends a stream in good order. -/
def graceful (r : Reason) : Bool := r = reasonOK ∨ r = []

/-- `remoteClose`: the peer has finished sending. Any other reason is an abort. -/
def remoteClose (st : Stream) (r : Reason) : Stream :=
  if st.remoteClosed ∨ st.reset then st
  else if graceful r then { st with remoteClosed := true }
  else { st with remoteClosed := true, reset := true, resetReason := r, buf := [] }

/-- `kill`: the whole session ended. What is buffered can still be read. -/
def kill (st : Stream) (r : Reason) : Stream :=
  if st.reset then st
  else { st with reset := true, resetReason := r, localClosed := true, remoteClosed := true }

/-- `finished`: both directions are done. -/
def finished (st : Stream) : Bool := st.reset || (st.localClosed && st.remoteClosed)

/-- The bytes `Read` hands out are the front of the buffer, and the credit for them is either
pending or returned at once. -/
theorem read_bytes {st after : Stream} {threshold credit : UInt32} {length : Nat} {data : Bytes}
    (h : st.read threshold length = .bytes data credit after) :
    data = st.buf.take length ∧ after.buf = st.buf.drop length ∧ st.buf ≠ [] ∧
      after = { st with
        buf := after.buf
        recvWindow := st.recvWindow + UInt32.ofNat data.length
        pendingCredit := after.pendingCredit } ∧
      ((credit = 0 ∧ after.pendingCredit = st.pendingCredit + UInt32.ofNat data.length ∧
          after.pendingCredit < threshold) ∨
        (credit = st.pendingCredit + UInt32.ofNat data.length ∧ after.pendingCredit = 0)) := by
  unfold read at h
  dsimp only at h
  split_ifs at h with hbuf hreset hclosed hcredit <;> cases h
  · exact ⟨rfl, rfl, hbuf, rfl, .inr ⟨rfl, rfl⟩⟩
  · exact ⟨rfl, rfl, hbuf, rfl, .inl ⟨rfl, rfl, UInt32.not_le.mp hcredit⟩⟩

/-- `Read` reports the end of the stream only when the buffer is empty and the peer has closed in
good order. -/
theorem read_eof {st : Stream} {threshold : UInt32} {length : Nat}
    (h : st.read threshold length = .eof) :
    st.buf = [] ∧ st.reset = false ∧ st.remoteClosed = true := by
  unfold read at h
  dsimp only at h
  split_ifs at h with hbuf hreset hclosed
  exact ⟨hbuf, by simpa using hreset, hclosed⟩

/-- Cutting a length to a 32 bit limit, while the length has 32 bits itself. -/
theorem cut_eq_min {limit : UInt32} {n : Nat} (hn : n < 2 ^ 32) :
    (if limit < UInt32.ofNat n then limit.toNat else n) = min n limit.toNat := by
  have hlt : limit < UInt32.ofNat n ↔ limit.toNat < n := by
    rw [UInt32.lt_iff_toNat_lt, UInt32.toNat_ofNat_of_lt' hn]
  split_ifs with h
  · have := hlt.mp h
    omega
  · have := mt hlt.mpr h
    omega

/-- A round of `Write` that takes credit changes nothing else. -/
theorem write_after {st after : Stream} {maxFrame : UInt32} {remaining n : Nat}
    (h : st.write maxFrame remaining = .take n after) :
    after = { st with sendWindow := after.sendWindow } := by
  unfold write at h
  dsimp only at h
  split_ifs at h <;> cases h <;> rfl

/-- A round of `Write` with less than `2 ^ 32` bytes left takes credit it has, for bytes it
has, and at most one frame's worth. -/
theorem write_take {st after : Stream} {maxFrame : UInt32} {remaining n : Nat}
    (h : st.write maxFrame remaining = .take n after) (hremaining : remaining < 2 ^ 32) :
    n ≤ remaining ∧ n ≤ st.sendWindow.toNat ∧ n ≤ maxFrame.toNat ∧
      after = { st with sendWindow := st.sendWindow - UInt32.ofNat n } ∧
      st.reset = false ∧ st.localClosed = false ∧ (0 < maxFrame → 0 < remaining → 0 < n) := by
  have hcredit : min remaining st.sendWindow.toNat < 2 ^ 32 :=
    (Nat.min_le_left _ _).trans_lt hremaining
  unfold write at h
  dsimp only at h
  rw [cut_eq_min hremaining, cut_eq_min hcredit] at h
  split_ifs at h with hreset hclosed hwindow
  cases h
  have hsend : 0 < st.sendWindow.toNat := by
    rw [Nat.pos_iff_ne_zero]
    exact fun hzero => hwindow (UInt32.toNat_inj.mp hzero)
  refine ⟨by omega, by omega, by omega, rfl, by simpa using hreset, by simpa using hclosed, ?_⟩
  intro hframe hleft
  have hframe : 0 < maxFrame.toNat := UInt32.lt_iff_toNat_lt.mp hframe
  omega

end Stream

end AccessRelay.Mux
