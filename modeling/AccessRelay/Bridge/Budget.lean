import AccessRelay.Machine.Run
import AccessRelay.Proto.Frame

/-!
# Two copy loops on one budget

`JoinWithBudget` of `internal/bridge`. Two goroutines run `copyOneWay`, one for each direction. A
loop reads a chunk, reserves bytes for it from the shared counter by compare-and-swap, writes what
it has reserved, and starts again; it ends at the end of its source, at an error, or when it could
not reserve the whole chunk. A step is one `Read`, one atomic operation on the counter, one `Write`
or one critical section, so a run is one interleaving of the two loops. What the connections do is
in the actions: a `Read` returns any bytes and any error, and a `Write` takes any part of what it
is given and may fail.

`Half.read` and `Half.written` are not in the source. They record the bytes that `Read` returned
and those that `Write` took. `budget_exact` says that the bytes written, the counter, and the
budget are in this order in every state of every run.
-/

namespace AccessRelay.Bridge

open Encoding Proto Machine

/-- The size of the copy buffer of each direction. -/
def bufferSize : Nat := maxFramePayload.toNat

def reasonLimitBytesExceeded : Reason := ascii "limit_bytes_exceeded"

/-- The error of a `Read`. -/
inductive ReadError where
  | eof
  | failed
  deriving DecidableEq, Repr

/-- The errors that `JoinWithBudget` returns: those of `Write` and `Read`, `io.ErrShortWrite` and
`ErrBudgetExhausted`. -/
inductive JoinError where
  | budgetExhausted
  | write
  | shortWrite
  | read
  deriving DecidableEq, Repr

/-- The two directions. -/
inductive Direction where
  | aToB
  | bToA
  deriving DecidableEq, Repr

/-- A copy loop, named after what it does next. `chunk` and `er` are what the last `Read` returned.
From `finish` on `copyOneWay` has returned. -/
inductive Copy where
  | read
  | load (chunk : Bytes) (er : Option ReadError)
  | swap (chunk : Bytes) (er : Option ReadError) (used : UInt64)
  | write (chunk : Bytes) (er : Option ReadError) (allowed : Nat)
  | finish (error : Option JoinError)
  | tearDown (error : Option JoinError)
  | done (error : Option JoinError)
  deriving DecidableEq, Repr

/-- One direction: its loop, the count that it returns, and what it has read and written. -/
structure Half where
  copy : Copy
  n : Int64
  read : Bytes
  written : Bytes
  deriving DecidableEq, Repr

/-- What a goroutine does with the connections at its end: it aborts both with a reason, or ends
the send direction of its destination. -/
inductive Teardown where
  | abort (reason : Reason)
  | halfClose (d : Direction)
  deriving DecidableEq, Repr

/-- The variables that the two goroutines share, and the two loops. -/
structure State where
  maxBytes : UInt64
  spent : UInt64
  first : Option JoinError
  teardowns : List Teardown
  halves : Direction → Half

/-- Both goroutines have been started. -/
def newJoin (maxBytes : UInt64) : State where
  maxBytes := maxBytes
  spent := 0
  first := none
  teardowns := []
  halves := fun _ => ⟨.read, 0, [], []⟩

/-- The loop after its chunk has been dealt with: on to the next `Read`, or to the end. -/
def Copy.afterChunk : Option ReadError → Copy
  | none => .read
  | some .eof => .finish none
  | some .failed => .finish (some .read)

/-- How a goroutine ends the connections. -/
def teardownFor (d : Direction) : Option JoinError → Teardown
  | some .budgetExhausted => .abort reasonLimitBytesExceeded
  | some _ => .abort reasonShutdown
  | none => .halfClose d

/-- A step of one goroutine, with what its connection does. -/
inductive Action where
  | read (d : Direction) (data : Bytes) (er : Option ReadError)
  | load (d : Direction)
  | swap (d : Direction)
  | write (d : Direction) (nw : Nat) (failed : Bool)
  | finish (d : Direction)
  | tearDown (d : Direction)
  deriving DecidableEq, Repr

namespace State

/-- One direction is replaced. -/
def setHalf (s : State) (d : Direction) (half : Half) : State :=
  { s with halves := Function.update s.halves d half }

/-- The loop of one direction goes on. -/
def goOn (s : State) (d : Direction) (copy : Copy) : State :=
  s.setHalf d { s.halves d with copy := copy }

/-- `src.Read(buf)`. -/
def read (s : State) (d : Direction) (data : Bytes) (er : Option ReadError) : State :=
  s.setHalf d { s.halves d with
    copy := if data = [] then .afterChunk er else .load data er
    read := (s.halves d).read ++ data }

/-- `take` up to `spent.Load`. A budget of zero is no budget. -/
def load (s : State) (d : Direction) (chunk : Bytes) (er : Option ReadError) : State :=
  if s.maxBytes = 0 then s.goOn d (.write chunk er chunk.length)
  else if s.maxBytes ≤ s.spent then s.goOn d (.finish (some .budgetExhausted))
  else s.goOn d (.swap chunk er s.spent)

/-- What `take` asks for, if the counter stands at `used`. -/
def grant (s : State) (chunk : Bytes) (used : UInt64) : UInt64 :=
  if s.maxBytes - used < UInt64.ofNat chunk.length then s.maxBytes - used
  else UInt64.ofNat chunk.length

/-- `spent.CompareAndSwap`; if it fails, `take` starts again. -/
def swap (s : State) (d : Direction) (chunk : Bytes) (er : Option ReadError) (used : UInt64) :
    State :=
  if s.spent = used then
    { s with spent := used + s.grant chunk used }.goOn d
      (.write chunk er (s.grant chunk used).toNat)
  else s.goOn d (.load chunk er)

/-- `dst.Write`, which takes the first `nw` bytes. The write of a part of a chunk is the last one,
whatever it returns. -/
def write (s : State) (d : Direction) (chunk : Bytes) (er : Option ReadError) (allowed nw : Nat)
    (failed : Bool) : State :=
  s.setHalf d { s.halves d with
    copy :=
      if allowed < chunk.length then .finish (some .budgetExhausted)
      else if failed then .finish (some .write)
      else if nw ≠ chunk.length then .finish (some .shortWrite)
      else .afterChunk er
    n := (s.halves d).n + Int64.ofNat nw
    written := (s.halves d).written ++ chunk.take nw }

/-- `record`: the first error is kept. -/
def finish (s : State) (d : Direction) (error : Option JoinError) : State :=
  { s with first := s.first.or error }.goOn d (.tearDown error)

/-- `abort` or `halfClose`. -/
def tearDown (s : State) (d : Direction) (error : Option JoinError) : State :=
  { s with teardowns := teardownFor d error :: s.teardowns }.goOn d (.done error)

/-- One step. A `Read` returns no more than its buffer holds, and a `Write` takes no more than it
is given. -/
def step (s : State) : Action → Option State
  | .read d data er =>
      match (s.halves d).copy with
      | .read => if data.length ≤ bufferSize then some (s.read d data er) else none
      | _ => none
  | .load d =>
      match (s.halves d).copy with
      | .load chunk er => some (s.load d chunk er)
      | _ => none
  | .swap d =>
      match (s.halves d).copy with
      | .swap chunk er used => some (s.swap d chunk er used)
      | _ => none
  | .write d nw failed =>
      match (s.halves d).copy with
      | .write chunk er allowed =>
          if nw ≤ allowed then some (s.write d chunk er allowed nw failed) else none
      | _ => none
  | .finish d =>
      match (s.halves d).copy with
      | .finish error => some (s.finish d error)
      | _ => none
  | .tearDown d =>
      match (s.halves d).copy with
      | .tearDown error => some (s.tearDown d error)
      | _ => none

/-- `JoinWithBudget` returns, once both goroutines are done: the two counts and the first error. -/
def returned (s : State) : Option (Int64 × Int64 × Option JoinError) :=
  match (s.halves .aToB).copy, (s.halves .bToA).copy with
  | .done _, .done _ => some ((s.halves .aToB).n, (s.halves .bToA).n, s.first)
  | _, _ => none

end State

namespace Copy

/-- The bytes that a loop has reserved and not yet handed to `Write`. -/
def inFlight : Copy → Nat
  | .write _ _ allowed => allowed
  | _ => 0

/-- The bytes that a loop has read and not yet tried to reserve. -/
def unclaimed : Copy → Nat
  | .load chunk _ | .swap chunk _ _ => chunk.length
  | _ => 0

/-- The error with which `copyOneWay` has returned. -/
def error : Copy → Option JoinError
  | .finish error | .tearDown error | .done error => error
  | _ => none

/-- The error that the goroutine has recorded. -/
def recorded : Copy → Option JoinError
  | .tearDown error | .done error => error
  | _ => none

end Copy

/-- A number of each direction, added up. -/
def State.total (s : State) (f : Half → Nat) : Nat := f (s.halves .aToB) + f (s.halves .bToA)

/-- The bytes read in both directions. -/
def State.totalRead (s : State) : Nat := s.total fun half => half.read.length

/-- The bytes written in both directions. -/
def State.totalWritten (s : State) : Nat := s.total fun half => half.written.length

/-- What one direction keeps: it has written all that it has read before the chunk it is dealing
with, and a loop that has ended without an error has written everything. It gives up for the
budget only if more has been read than the budget allows. -/
def Half.Keeps (maxBytes totalRead : Nat) (half : Half) : Prop :=
  match half.copy with
  | .read => half.written = half.read
  | .load chunk _ => half.read = half.written ++ chunk ∧ chunk ≠ [] ∧ chunk.length ≤ bufferSize
  | .swap chunk _ used =>
      half.read = half.written ++ chunk ∧ chunk ≠ [] ∧ chunk.length ≤ bufferSize ∧
        used.toNat < maxBytes
  | .write chunk _ allowed =>
      half.read = half.written ++ chunk ∧ allowed ≤ chunk.length ∧
        (allowed < chunk.length → maxBytes < totalRead)
  | .finish error | .tearDown error | .done error =>
      half.written <+: half.read ∧ (error = none → half.written = half.read) ∧
        (error = some .budgetExhausted → maxBytes < totalRead)

/-- What every run keeps: what is written or about to be has been reserved, and what is reserved
has been read and is within the budget. -/
structure State.Within (s : State) : Prop where
  halves : ∀ d, (s.halves d).Keeps s.maxBytes.toNat s.totalRead
  written : (s.total fun half => half.written.length + half.copy.inFlight) ≤ s.spent.toNat
  spent : s.spent.toNat ≤ s.maxBytes.toNat
  claimed : s.spent.toNat + (s.total fun half => half.copy.unclaimed) ≤ s.totalRead
  clean : s.first = none → ∀ d, (s.halves d).copy.recorded = none
  exhausted : s.first = some .budgetExhausted → s.maxBytes.toNat < s.totalRead

section Within

variable {s s' : State} {d : Direction} {half : Half}

/-- One direction is replaced in a sum. -/
theorem total_set_half (f : Half → Nat) (s : State) (d : Direction) (half : Half) :
    (s.setHalf d half).total f + f (s.halves d) = s.total f + f half := by
  cases d with
  | aToB =>
      simp only [State.total, State.setHalf, Function.update_self, ne_eq, reduceCtorEq,
        not_false_eq_true, Function.update_of_ne]
      omega
  | bToA =>
      simp only [State.total, State.setHalf, Function.update_self, ne_eq, reduceCtorEq,
        not_false_eq_true, Function.update_of_ne]
      omega

/-- What a direction keeps does not depend on what else is read. -/
theorem Half.Keeps.mono {maxBytes total total' : Nat} (h : half.Keeps maxBytes total)
    (hle : total ≤ total') : half.Keeps maxBytes total' := by
  unfold Half.Keeps at h ⊢
  split at h
  · exact h
  · exact h
  · exact h
  · exact ⟨h.1, h.2.1, fun hlt => (h.2.2 hlt).trans_le hle⟩
  · exact ⟨h.1, h.2.1, fun he => (h.2.2 he).trans_le hle⟩
  · exact ⟨h.1, h.2.1, fun he => (h.2.2 he).trans_le hle⟩
  · exact ⟨h.1, h.2.1, fun he => (h.2.2 he).trans_le hle⟩

/-- A step of one direction: it reads no less than it claims, and reserves no less than it
writes. -/
theorem State.Within.replace (h : s.Within) (spent : UInt64) (first : Option JoinError)
    (teardowns : List Teardown)
    (hread : (s.halves d).read.length ≤ half.read.length)
    (hkeeps : ∀ total, s.totalRead + half.read.length = total + (s.halves d).read.length →
      half.Keeps s.maxBytes.toNat total)
    (hwritten : s.spent.toNat + (half.written.length + half.copy.inFlight) ≤
      spent.toNat + ((s.halves d).written.length + (s.halves d).copy.inFlight))
    (hspent : spent.toNat ≤ s.maxBytes.toNat)
    (hclaimed : spent.toNat + half.copy.unclaimed + (s.halves d).read.length ≤
      s.spent.toNat + (s.halves d).copy.unclaimed + half.read.length)
    (hclean : first = none → s.first = none ∧ half.copy.recorded = none)
    (hexhausted : first = some .budgetExhausted → s.maxBytes.toNat < s.totalRead) :
    ({ s with spent := spent, first := first, teardowns := teardowns }.setHalf d half).Within := by
  have htotal := fun f =>
    total_set_half f { s with spent := spent, first := first, teardowns := teardowns } d half
  have hsum : ∀ f, State.total { s with spent := spent, first := first, teardowns := teardowns } f =
      s.total f := fun f => rfl
  have hreads := htotal fun half => half.read.length
  have hwrites := htotal fun half => half.written.length + half.copy.inFlight
  have hclaims := htotal fun half => half.copy.unclaimed
  simp only [hsum] at hreads hwrites hclaims
  have h₁ := h.written
  have h₂ := h.claimed
  have hgrows : s.totalRead ≤ State.totalRead
      ({ s with spent := spent, first := first, teardowns := teardowns }.setHalf d half) := by
    simp only [State.totalRead] at h₂ ⊢
    omega
  refine ⟨?_, ?_, hspent, ?_, ?_, ?_⟩
  · intro e
    by_cases he : e = d
    · subst he
      have hself : (({ s with spent := spent, first := first, teardowns := teardowns } :
          State).setHalf e half).halves e = half := Function.update_self _ _ _
      rw [hself]
      refine hkeeps _ ?_
      simp only [State.totalRead]
      omega
    · have hother : (({ s with spent := spent, first := first, teardowns := teardowns } :
          State).setHalf d half).halves e = s.halves e := Function.update_of_ne he _ _
      rw [hother]
      exact (h.halves e).mono hgrows
  · show _ ≤ spent.toNat
    omega
  · show spent.toNat + _ ≤ _
    simp only [State.totalRead] at h₂ ⊢
    omega
  · intro hnone e
    obtain ⟨hfirst, hrecorded⟩ := hclean hnone
    by_cases he : e = d
    · subst he
      show (Function.update s.halves e half e).copy.recorded = none
      rw [Function.update_self]
      exact hrecorded
    · show (Function.update s.halves d half e).copy.recorded = none
      rw [Function.update_of_ne he]
      exact h.clean hfirst e
  · intro hfirst
    exact (hexhausted hfirst).trans_le hgrows

/-- The end of a loop, or its next turn, once all that it has read is written. -/
theorem keeps_after_chunk {maxBytes total : Nat} (er : Option ReadError)
    (hcopy : half.copy = .afterChunk er) (hwritten : half.written = half.read) :
    half.Keeps maxBytes total := by
  unfold Half.Keeps
  rw [hcopy]
  cases er with
  | none => exact hwritten
  | some e =>
      cases e with
      | eof => exact ⟨hwritten ▸ List.prefix_refl _, fun _ => hwritten, nofun⟩
      | failed => exact ⟨hwritten ▸ List.prefix_refl _, nofun, nofun⟩

/-- A loop that is done with its chunk owes nothing and has recorded nothing. -/
theorem Copy.after_chunk_idle (er : Option ReadError) :
    (Copy.afterChunk er).inFlight = 0 ∧ (Copy.afterChunk er).unclaimed = 0 ∧
      (Copy.afterChunk er).recorded = none := by
  rcases er with _ | _ | _ <;> exact ⟨rfl, rfl, rfl⟩

theorem State.Within.read (h : s.Within) (hcopy : (s.halves d).copy = .read) {data : Bytes}
    (hsize : data.length ≤ bufferSize) (er : Option ReadError) : (s.read d data er).Within := by
  have hkeeps := h.halves d
  simp only [Half.Keeps, hcopy] at hkeeps
  obtain ⟨hinFlight, hunclaimed, hrecorded⟩ := Copy.after_chunk_idle er
  refine h.replace s.spent s.first s.teardowns ?_ ?_ ?_ h.spent ?_ ?_ h.exhausted
  · show _ ≤ ((s.halves d).read ++ data).length
    rw [List.length_append]
    omega
  · intro total _
    by_cases hdata : data = []
    · refine keeps_after_chunk er (by simp [hdata]) ?_
      rw [hdata, List.append_nil, hkeeps]
    · simp only [Half.Keeps, if_neg hdata]
      exact ⟨by rw [hkeeps], hdata, hsize⟩
  · by_cases hdata : data = []
    · simp only [if_pos hdata, hinFlight]
      omega
    · simp only [if_neg hdata, hcopy, Copy.inFlight, le_refl]
  · by_cases hdata : data = []
    · simp only [if_pos hdata, hunclaimed, List.length_append]
      omega
    · simp only [if_neg hdata, hcopy, Copy.unclaimed, List.length_append]
      omega
  · intro hfirst
    refine ⟨hfirst, ?_⟩
    by_cases hdata : data = []
    · simp only [if_pos hdata, hrecorded]
    · simp only [if_neg hdata, Copy.recorded]

/-- A loop that finds the counter at the budget has read a byte too many. -/
theorem State.Within.load (h : s.Within) (hpos : s.maxBytes ≠ 0) {chunk : Bytes}
    {er : Option ReadError} (hcopy : (s.halves d).copy = .load chunk er) :
    (s.load d chunk er).Within := by
  have hkeeps := h.halves d
  simp only [Half.Keeps, hcopy] at hkeeps
  obtain ⟨hread, hne, hsize⟩ := hkeeps
  have hchunk : 0 < chunk.length := List.length_pos_iff.2 hne
  unfold State.load
  rw [if_neg hpos]
  split
  case isTrue hspent =>
      refine h.replace s.spent s.first s.teardowns le_rfl ?_ ?_ h.spent ?_ ?_ h.exhausted
      · intro total htotal
        refine ⟨⟨chunk, hread.symm⟩, nofun, fun _ => ?_⟩
        have hclaimed := h.claimed
        have hmine : chunk.length ≤ s.total fun half => half.copy.unclaimed := by
          cases d <;> simp only [State.total, hcopy, Copy.unclaimed] <;> omega
        have hle : s.maxBytes.toNat ≤ s.spent.toNat := UInt64.le_iff_toNat_le.1 hspent
        simp only at htotal
        omega
      · simp [hcopy, Copy.inFlight]
      · simp [hcopy, Copy.unclaimed]
      · exact fun hfirst => ⟨hfirst, rfl⟩
  case isFalse hspent =>
      refine h.replace s.spent s.first s.teardowns le_rfl ?_ ?_ h.spent ?_ ?_ h.exhausted
      · intro total _
        refine ⟨hread, hne, hsize, ?_⟩
        rw [UInt64.le_iff_toNat_le] at hspent
        omega
      · simp [hcopy, Copy.inFlight]
      · simp [hcopy, Copy.unclaimed]
      · exact fun hfirst => ⟨hfirst, rfl⟩

/-- What `take` asks for is the chunk, or what is left of the budget if that is less. -/
theorem grant_toNat {chunk : Bytes} {used : UInt64} (hused : used.toNat < s.maxBytes.toNat)
    (hsize : chunk.length ≤ bufferSize) :
    (s.grant chunk used).toNat = min chunk.length (s.maxBytes.toNat - used.toNat) := by
  have hbuffer : bufferSize = 65536 := rfl
  have hleft : (s.maxBytes - used).toNat = s.maxBytes.toNat - used.toNat :=
    UInt64.toNat_sub_of_le _ _ (UInt64.le_iff_toNat_le.2 hused.le)
  have hlength : (UInt64.ofNat chunk.length).toNat = chunk.length :=
    UInt64.toNat_ofNat_of_lt' (lt_of_le_of_lt hsize (by decide))
  unfold State.grant
  split
  case isTrue hlt =>
      rw [UInt64.lt_iff_toNat_lt, hleft, hlength] at hlt
      rw [hleft]
      omega
  case isFalse hlt =>
      rw [UInt64.lt_iff_toNat_lt, hleft, hlength] at hlt
      rw [hlength]
      omega

/-- The swap is where the counter moves, by what the loop may write. It has not moved since the
loop loaded it, so the sum neither wraps nor passes the budget. -/
theorem State.Within.swap (h : s.Within) {chunk : Bytes} {er : Option ReadError} {used : UInt64}
    (hcopy : (s.halves d).copy = .swap chunk er used) : (s.swap d chunk er used).Within := by
  have hkeeps := h.halves d
  simp only [Half.Keeps, hcopy] at hkeeps
  obtain ⟨hread, hne, hsize, hused⟩ := hkeeps
  unfold State.swap
  split
  case isFalse hmoved =>
      refine h.replace s.spent s.first s.teardowns le_rfl ?_ ?_ h.spent ?_ ?_ h.exhausted
      · intro total _
        exact ⟨hread, hne, hsize⟩
      · simp [hcopy, Copy.inFlight]
      · simp [hcopy, Copy.unclaimed]
      · exact fun hfirst => ⟨hfirst, rfl⟩
  case isTrue hsame =>
      have hgrant := grant_toNat hused hsize
      have hmax : s.maxBytes.toNat < 2 ^ 64 := s.maxBytes.toNat_lt
      have hspent : (used + s.grant chunk used).toNat = used.toNat + (s.grant chunk used).toNat :=
        (UInt64.toNat_add _ _).trans (Nat.mod_eq_of_lt (by omega))
      have hclaimed := h.claimed
      have hmine : chunk.length ≤ s.total fun half => half.copy.unclaimed := by
        cases d <;> simp only [State.total, hcopy, Copy.unclaimed] <;> omega
      subst hsame
      refine h.replace _ s.first s.teardowns le_rfl ?_ ?_ ?_ ?_ ?_ h.exhausted
      · intro total htotal
        refine ⟨hread, by omega, fun hlt => ?_⟩
        simp only at htotal
        omega
      · simp only [hcopy, Copy.inFlight]
        omega
      · omega
      · simp only [hcopy, Copy.unclaimed]
        omega
      · exact fun hfirst => ⟨hfirst, rfl⟩

theorem State.Within.write (h : s.Within) {chunk : Bytes} {er : Option ReadError} {allowed : Nat}
    (hcopy : (s.halves d).copy = .write chunk er allowed) {nw : Nat} (hnw : nw ≤ allowed)
    (failed : Bool) : (s.write d chunk er allowed nw failed).Within := by
  have hkeeps := h.halves d
  simp only [Half.Keeps, hcopy] at hkeeps
  obtain ⟨hread, hallowed, hover⟩ := hkeeps
  have hpart : (s.halves d).written ++ chunk.take nw <+: (s.halves d).read := by
    rw [hread, List.prefix_append_right_inj]
    exact List.take_prefix nw chunk
  have hlength : ((s.halves d).written ++ chunk.take nw).length =
      (s.halves d).written.length + nw := by
    rw [List.length_append, List.length_take]
    omega
  -- Whatever `Write` returns, the loop has no more bytes in hand than it has read afresh.
  have hnext : ∀ copy, copy = (if allowed < chunk.length then .finish (some .budgetExhausted)
      else if failed then .finish (some .write)
      else if nw ≠ chunk.length then .finish (some .shortWrite)
      else .afterChunk er : Copy) →
      copy.inFlight = 0 ∧ copy.unclaimed = 0 ∧ copy.recorded = none := by
    intro copy hcopy
    subst hcopy
    split_ifs
    · exact ⟨rfl, rfl, rfl⟩
    · exact ⟨rfl, rfl, rfl⟩
    · exact ⟨rfl, rfl, rfl⟩
    · exact Copy.after_chunk_idle er
  have hidle := hnext _ rfl
  refine h.replace s.spent s.first s.teardowns le_rfl ?_ ?_ h.spent ?_ ?_ h.exhausted
  · intro total htotal
    simp only at htotal
    have htotal : total = s.totalRead := by omega
    by_cases hless : allowed < chunk.length
    · simp only [Half.Keeps, if_pos hless]
      exact ⟨hpart, nofun, fun _ => htotal ▸ hover hless⟩
    · by_cases hfailed : failed = true
      · simp only [Half.Keeps, if_neg hless, if_pos hfailed]
        exact ⟨hpart, nofun, nofun⟩
      · by_cases hshort : nw = chunk.length
        · refine keeps_after_chunk er (by simp [hless, hfailed, hshort]) ?_
          rw [hshort, List.take_length, hread]
        · simp only [Half.Keeps, if_neg hless, if_neg hfailed, ne_eq, if_pos hshort]
          exact ⟨hpart, nofun, nofun⟩
  · have hreserved : (s.halves d).copy.inFlight = allowed := by rw [hcopy]; rfl
    simp only [hidle.1, hlength, hreserved]
    omega
  · simp only [hidle.2.1]
    omega
  · exact fun hfirst => ⟨hfirst, hidle.2.2⟩

theorem State.Within.finish (h : s.Within) {error : Option JoinError}
    (hcopy : (s.halves d).copy = .finish error) : (s.finish d error).Within := by
  have hkeeps := h.halves d
  simp only [Half.Keeps, hcopy] at hkeeps
  refine h.replace s.spent (s.first.or error) s.teardowns le_rfl ?_ ?_ h.spent ?_ ?_ ?_
  · intro total htotal
    simp only at htotal
    have htotal : total = s.totalRead := by omega
    exact htotal ▸ hkeeps
  · simp [hcopy, Copy.inFlight]
  · simp [hcopy, Copy.unclaimed]
  · intro hnone
    exact Option.or_eq_none_iff.1 hnone
  · intro hfirst
    cases hs : s.first with
    | none => exact hkeeps.2.2 (by simpa [hs] using hfirst)
    | some e => exact h.exhausted (by simpa [hs] using hfirst)

theorem State.Within.tearDown (h : s.Within) {error : Option JoinError}
    (hcopy : (s.halves d).copy = .tearDown error) : (s.tearDown d error).Within := by
  have hkeeps := h.halves d
  simp only [Half.Keeps, hcopy] at hkeeps
  refine h.replace s.spent s.first _ le_rfl ?_ ?_ h.spent ?_ ?_ h.exhausted
  · intro total htotal
    simp only at htotal
    have htotal : total = s.totalRead := by omega
    exact htotal ▸ hkeeps
  · simp [hcopy, Copy.inFlight]
  · simp [hcopy, Copy.unclaimed]
  · intro hfirst
    have hrecorded := h.clean hfirst d
    rw [hcopy] at hrecorded
    exact ⟨hfirst, hrecorded⟩

/-- What a step can be: the loop of its direction is where the action needs it. -/
inductive State.Moves (s : State) : Action → State → Prop where
  | read {d : Direction} {data : Bytes} (er : Option ReadError) (hcopy : (s.halves d).copy = .read)
      (hsize : data.length ≤ bufferSize) : Moves s (.read d data er) (s.read d data er)
  | load {d : Direction} {chunk : Bytes} {er : Option ReadError}
      (hcopy : (s.halves d).copy = .load chunk er) : Moves s (.load d) (s.load d chunk er)
  | swap {d : Direction} {chunk : Bytes} {er : Option ReadError} {used : UInt64}
      (hcopy : (s.halves d).copy = .swap chunk er used) :
      Moves s (.swap d) (s.swap d chunk er used)
  | write {d : Direction} {chunk : Bytes} {er : Option ReadError} {allowed nw : Nat}
      (failed : Bool) (hcopy : (s.halves d).copy = .write chunk er allowed)
      (hnw : nw ≤ allowed) :
      Moves s (.write d nw failed) (s.write d chunk er allowed nw failed)
  | finish {d : Direction} {error : Option JoinError}
      (hcopy : (s.halves d).copy = .finish error) : Moves s (.finish d) (s.finish d error)
  | tearDown {d : Direction} {error : Option JoinError}
      (hcopy : (s.halves d).copy = .tearDown error) : Moves s (.tearDown d) (s.tearDown d error)

theorem step_moves {a : Action} (hstep : s.step a = some s') : s.Moves a s' := by
  cases a with
  | read d data er =>
      simp only [State.step] at hstep
      split at hstep
      next hcopy =>
        obtain ⟨hsize, hstep⟩ := Option.ite_none_right_eq_some.1 hstep
        cases hstep
        exact .read er hcopy hsize
      · cases hstep
  | load d =>
      simp only [State.step] at hstep
      split at hstep
      next chunk er hcopy =>
        cases hstep
        exact .load hcopy
      · cases hstep
  | swap d =>
      simp only [State.step] at hstep
      split at hstep
      next chunk er used hcopy =>
        cases hstep
        exact .swap hcopy
      · cases hstep
  | write d nw failed =>
      simp only [State.step] at hstep
      split at hstep
      next chunk er allowed hcopy =>
        obtain ⟨hnw, hstep⟩ := Option.ite_none_right_eq_some.1 hstep
        cases hstep
        exact .write failed hcopy hnw
      · cases hstep
  | finish d =>
      simp only [State.step] at hstep
      split at hstep
      next error hcopy =>
        cases hstep
        exact .finish hcopy
      · cases hstep
  | tearDown d =>
      simp only [State.step] at hstep
      split at hstep
      next error hcopy =>
        cases hstep
        exact .tearDown hcopy
      · cases hstep

/-- Every step keeps the books. -/
theorem State.Within.step {a : Action} (h : s.Within) (hpos : s.maxBytes ≠ 0)
    (hstep : s.step a = some s') : s'.Within := by
  cases step_moves hstep with
  | read er hcopy hsize => exact h.read hcopy hsize er
  | load hcopy => exact h.load hpos hcopy
  | swap hcopy => exact h.swap hcopy
  | write failed hcopy hnw => exact h.write hcopy hnw failed
  | finish hcopy => exact h.finish hcopy
  | tearDown hcopy => exact h.tearDown hcopy

/-- Only a swap moves the counter. -/
theorem spent_step {a : Action} (hstep : s.step a = some s') :
    s'.maxBytes = s.maxBytes ∧
      (s'.spent = s.spent ∨ ∃ d chunk er, (s.halves d).copy = .swap chunk er s.spent ∧
        s'.spent = s.spent + s.grant chunk s.spent) := by
  cases step_moves hstep with
  | load =>
      unfold State.load
      split_ifs <;> exact ⟨rfl, .inl rfl⟩
  | @swap d chunk er used hcopy =>
      unfold State.swap
      split_ifs with hsame
      · subst hsame
        exact ⟨rfl, .inr ⟨d, chunk, er, hcopy, rfl⟩⟩
      · exact ⟨rfl, .inl rfl⟩
  | read | write | finish | tearDown => exact ⟨rfl, .inl rfl⟩

/-- The counter does not wrap: no step makes it less. -/
theorem spent_mono_step {a : Action} (h : s.Within) (hstep : s.step a = some s') :
    s.spent.toNat ≤ s'.spent.toNat := by
  obtain ⟨-, hsame | ⟨d, chunk, er, hcopy, hspent⟩⟩ := spent_step hstep
  · rw [hsame]
  · have hkeeps := h.halves d
    simp only [Half.Keeps, hcopy] at hkeeps
    obtain ⟨-, -, hsize, hused⟩ := hkeeps
    have hgrant := grant_toNat hused hsize
    have hmax : s.maxBytes.toNat < 2 ^ 64 := s.maxBytes.toNat_lt
    rw [hspent, UInt64.toNat_add, Nat.mod_eq_of_lt (by omega)]
    omega

theorem new_join_within (maxBytes : UInt64) : (newJoin maxBytes).Within where
  halves _ := rfl
  written := Nat.le_refl 0
  spent := Nat.zero_le _
  claimed := Nat.le_refl 0
  clean _ _ := rfl
  exhausted := nofun

/-- What every state of a run keeps. -/
theorem within_run {actions : List Action} (h : s.Within) (hpos : s.maxBytes ≠ 0)
    (hrun : run State.step s actions = some s') :
    s'.Within ∧ s'.maxBytes = s.maxBytes ∧ s.spent.toNat ≤ s'.spent.toNat := by
  have hkept : ∀ {t a t'}, (t.Within ∧ t.maxBytes = s.maxBytes ∧
      s.spent.toNat ≤ t.spent.toNat) → State.step t a = some t' →
      t'.Within ∧ t'.maxBytes = s.maxBytes ∧ s.spent.toNat ≤ t'.spent.toNat := by
    intro t a t' ⟨hwithin, hmax, hmono⟩ hstep
    exact ⟨hwithin.step (hmax ▸ hpos) hstep, (spent_step hstep).1.trans hmax,
      hmono.trans (spent_mono_step hwithin hstep)⟩
  exact run_invariant hkept ⟨h, rfl, le_rfl⟩ hrun

/-- A direction has written a beginning of what it has read, whatever it does next. -/
theorem Half.Keeps.written_front {maxBytes total : Nat} (h : half.Keeps maxBytes total) :
    half.written <+: half.read := by
  unfold Half.Keeps at h
  split at h
  · exact h ▸ List.prefix_refl _
  · exact ⟨_, h.1.symm⟩
  · exact ⟨_, h.1.symm⟩
  · exact ⟨_, h.1.symm⟩
  · exact h.1
  · exact h.1
  · exact h.1

/-- A direction that has given up for the budget has the reads to show for it. -/
theorem Half.Keeps.exhausted {maxBytes total : Nat} (h : half.Keeps maxBytes total)
    (herror : half.copy.error = some .budgetExhausted) : maxBytes < total := by
  unfold Half.Keeps at h
  unfold Copy.error at herror
  split at herror
  case h_4 => cases herror
  all_goals
    rename_i hcopy
    rw [hcopy] at h
    exact h.2.2 herror

/-- Once both directions are done and no error was recorded, each has written all it has read. -/
theorem State.Within.written_all (h : s.Within) {aToB bToA : Int64}
    (hreturned : s.returned = some (aToB, bToA, none)) (d : Direction) :
    (s.halves d).written = (s.halves d).read := by
  unfold State.returned at hreturned
  split at hreturned
  · rename_i ea eb hcopyA hcopyB
    have hfirst : s.first = none := by
      cases hf : s.first with
      | none => rfl
      | some e => simp [hf] at hreturned
    obtain ⟨e, hcopy⟩ : ∃ e, (s.halves d).copy = .done e := by
      cases d with
      | aToB => exact ⟨ea, hcopyA⟩
      | bToA => exact ⟨eb, hcopyB⟩
    have hclean := h.clean hfirst d
    have hkeeps := h.halves d
    simp only [hcopy, Copy.recorded] at hclean
    simp only [Half.Keeps, hcopy] at hkeeps
    exact hkeeps.2.1 hclean
  · cases hreturned

end Within

/-- In every run with a budget: what is written is within the counter and the counter within the
budget, the counter only grows, each direction has written a beginning of what it has read, the
budget is given as the error only if more has been read than it allows, and a join that returns no
error has written everything. -/
theorem budget_exact {maxBytes : UInt64} (hpos : 0 < maxBytes) {before after : List Action}
    {s s' : State} (hbefore : run State.step (newJoin maxBytes) before = some s)
    (hafter : run State.step s after = some s') :
    s'.totalWritten ≤ s'.spent.toNat ∧ s'.spent.toNat ≤ maxBytes.toNat ∧
    s.spent.toNat ≤ s'.spent.toNat ∧
    (∀ d, (s'.halves d).written <+: (s'.halves d).read) ∧
    ((s'.first = some .budgetExhausted ∨
        ∃ d, (s'.halves d).copy.error = some .budgetExhausted) →
      maxBytes.toNat < s'.totalRead) ∧
    ∀ aToB bToA, s'.returned = some (aToB, bToA, none) →
      ∀ d, (s'.halves d).written = (s'.halves d).read := by
  have hne : maxBytes ≠ 0 := by
    rintro rfl
    exact absurd hpos (by decide)
  obtain ⟨hs, hmax, -⟩ := within_run (new_join_within maxBytes) hne hbefore
  obtain ⟨hs', hmax', hmono⟩ := within_run hs (hmax ▸ hne) hafter
  have hmax' : s'.maxBytes = maxBytes := hmax'.trans hmax
  refine ⟨?_, ?_, ?_, ?_, ?_, ?_⟩
  · have hwritten := hs'.written
    simp only [State.totalWritten, State.total] at hwritten ⊢
    omega
  · exact hmax' ▸ hs'.spent
  · exact hmono
  · exact fun d => (hs'.halves d).written_front
  · rintro (hfirst | ⟨d, herror⟩)
    · exact hmax' ▸ hs'.exhausted hfirst
    · exact hmax' ▸ (hs'.halves d).exhausted herror
  · exact fun aToB bToA hreturned => hs'.written_all hreturned

/-- A budget of five bytes. Both directions load the empty counter; the second swap fails, and the
chunk of the second direction is cut. -/
def contended : List Action :=
  [.read .aToB [1, 2, 3] none, .read .bToA [4, 5, 6] none, .load .aToB, .load .bToA,
    .swap .aToB, .swap .bToA, .load .bToA, .swap .bToA, .write .bToA 2 false, .finish .bToA,
    .tearDown .bToA, .write .aToB 3 false, .read .aToB [] (some .failed), .finish .aToB,
    .tearDown .aToB]

theorem contended_within_budget :
    ∃ s, run State.step (newJoin 5) contended = some s ∧ s.totalWritten = 5 ∧
      s.totalWritten ≤ s.spent.toNat ∧ s.spent.toNat ≤ UInt64.toNat 5 ∧
      (∀ d, (s.halves d).written <+: (s.halves d).read) := by
  have hevaluate : (run State.step (newJoin 5) contended).map (fun s => s.totalWritten) =
      some 5 := by decide +kernel
  obtain ⟨s, hrun, hwritten⟩ := Option.map_eq_some_iff.1 hevaluate
  have h := budget_exact (by decide) hrun (run_nil State.step s)
  exact ⟨s, hrun, hwritten, h.1, h.2.1, h.2.2.2.1⟩

end AccessRelay.Bridge
