import AccessRelay.Proto.Frame

/-!
# The frame reader and writer

`codec.go` over the standard library layers it rests on. A `Source` delivers a byte stream in
whatever chunks the network produces, `BufReader` is `bufio.Reader` on top of it, `readFull` is
`io.ReadFull`, and `Reader.readFrame` is `Reader.ReadFrame`. `Writer.writeFrame` is
`Writer.WriteFrame` over a `Sink` that may fail part way through a write.

`read_full_spec` is the one fact about the buffering the rest needs: what `readFull` returns
depends on the bytes still to come, never on how they are chunked or buffered.
-/

namespace AccessRelay.Proto

open Encoding

/-- The connection a reader draws from: the chunks still to be delivered and the error that
follows them. `eager` is an `io.Reader` that returns that error together with its last bytes. -/
structure Source where
  chunks : List Bytes
  final : CodecError
  eager : Bool
  deriving Repr

/-- One `Read` into a buffer of `n` bytes: at most one chunk, split when it is too long. -/
def Source.read (src : Source) (n : Nat) : Bytes × Option CodecError × Source :=
  match src.chunks with
  | [] => ([], some src.final, src)
  | chunk :: rest =>
      if chunk.length ≤ n then
        (chunk, if rest.isEmpty && src.eager then some src.final else none,
          { src with chunks := rest })
      else (chunk.take n, none, { src with chunks := chunk.drop n :: rest })

/-- `bufio.Reader`: `buffered` is `b.buf[b.r:b.w]`, `size` is `len(b.buf)`, and `err` an error
read together with bytes and not yet reported. -/
structure BufReader where
  size : Nat
  buffered : Bytes
  err : Option CodecError
  src : Source
  size_pos : 0 < size

/-- The bytes the reader has still to hand out. -/
def BufReader.remaining (br : BufReader) : Bytes := br.buffered ++ br.src.chunks.flatten

/-- A kept error is the end of the source, and the source has nothing left. -/
def BufReader.Sticky (br : BufReader) : Prop :=
  ∀ e, br.err = some e → e = br.src.final ∧ br.src.chunks = []

/-- `bufio.Reader.Read` into a buffer of `n > 0` bytes: one read of the source at most, straight
into the caller's buffer when that is at least as large as the reader's own. -/
def BufReader.read (br : BufReader) (n : Nat) : Bytes × Option CodecError × BufReader :=
  if br.buffered.isEmpty then
    match br.err with
    | some e => ([], some e, { br with err := none })
    | none =>
        if br.size ≤ n then
          let (bytes, e, src) := br.src.read n
          (bytes, e, { br with src := src })
        else
          let (bytes, e, src) := br.src.read br.size
          if bytes.isEmpty then ([], e, { br with src := src })
          else (bytes.take n, none, { br with buffered := bytes.drop n, err := e, src := src })
  else (br.buffered.take n, none, { br with buffered := br.buffered.drop n })

/-- Work left in a reader: every `Read` that reports no error makes it smaller. -/
def BufReader.work (br : BufReader) : Nat := br.remaining.length + br.src.chunks.length

/-- A source read hands out bytes from the front and loses none. -/
theorem Source.read_flatten (src : Source) (n : Nat) :
    src.chunks.flatten = (src.read n).1 ++ (src.read n).2.2.chunks.flatten := by
  unfold Source.read
  split
  next h => simp [h]
  next chunk rest h =>
    split
    · simp [h]
    · simp [h, ← List.append_assoc]

theorem Source.read_final (src : Source) (n : Nat) :
    (src.read n).2.2.final = src.final := by
  unfold Source.read
  split
  · rfl
  · split <;> rfl

theorem Source.read_chunks_le (src : Source) (n : Nat) :
    (src.read n).2.2.chunks.length ≤ src.chunks.length := by
  unfold Source.read
  split
  next h => simp [h]
  next chunk rest h =>
    split <;> simp [h]

/-- A source read reports an error only at its end, and reports its final one. -/
theorem Source.read_error {src : Source} {n : Nat} {e : CodecError}
    (h : (src.read n).2.1 = some e) :
    e = src.final ∧ (src.read n).2.2.chunks = [] := by
  unfold Source.read at h ⊢
  split at h
  next hnil =>
    simp only [Option.some.injEq] at h
    simp [h, hnil]
  next chunk rest hcons =>
    split at h
    next hle =>
      simp only [Option.ite_none_right_eq_some, Bool.and_eq_true, List.isEmpty_iff,
        Option.some.injEq] at h
      obtain ⟨⟨hrest, -⟩, rfl⟩ := h
      simp [hle, hrest]
    next => simp at h

/-- A source read that reports no error makes progress. -/
theorem Source.read_progress {src : Source} {n : Nat} (hn : 0 < n)
    (h : (src.read n).2.1 = none) :
    (src.read n).2.2.chunks.flatten.length + (src.read n).2.2.chunks.length <
      src.chunks.flatten.length + src.chunks.length := by
  unfold Source.read at h ⊢
  split at h
  next => simp at h
  next chunk rest hcons =>
    split at h
    next hle => simp only [hle, if_true, hcons, List.flatten_cons, List.length_append,
      List.length_cons]; omega
    next hlt =>
      simp only [hlt, if_false, hcons, List.flatten_cons, List.length_append, List.length_cons,
        List.length_drop]
      omega

/-- One buffered read hands out bytes from the front of what remains. -/
theorem BufReader.read_remaining (br : BufReader) (n : Nat) :
    br.remaining = (br.read n).1 ++ (br.read n).2.2.remaining := by
  unfold BufReader.read
  split
  next hempty =>
    have hbuf : br.buffered = [] := List.isEmpty_iff.mp hempty
    split
    · simp [BufReader.remaining, hbuf]
    · split
      · simpa [BufReader.remaining, hbuf] using Source.read_flatten br.src n
      · have hread := Source.read_flatten br.src br.size
        dsimp only
        split
        next hnone =>
          rw [List.isEmpty_iff] at hnone
          simpa [BufReader.remaining, hbuf, hnone] using hread
        next => simpa [BufReader.remaining, hbuf, ← List.append_assoc] using hread
  next => simp [BufReader.remaining, ← List.append_assoc]

theorem Source.read_length_le (src : Source) (n : Nat) : (src.read n).1.length ≤ n := by
  unfold Source.read
  split
  · simp
  · split
    · assumption
    · simp

/-- A read never returns more than was asked for. -/
theorem BufReader.read_length_le (br : BufReader) (n : Nat) : (br.read n).1.length ≤ n := by
  unfold BufReader.read
  split
  · split
    · simp
    · split
      · exact Source.read_length_le br.src n
      · dsimp only
        split <;> simp
  · simp

/-- Reading keeps the source's final error. -/
theorem BufReader.read_final (br : BufReader) (n : Nat) :
    (br.read n).2.2.src.final = br.src.final := by
  unfold BufReader.read
  split
  · split
    · rfl
    · split
      · exact Source.read_final br.src n
      · dsimp only
        split <;> exact Source.read_final br.src br.size
  · rfl

/-- Reading keeps a kept error honest. -/
theorem BufReader.read_sticky {br : BufReader} (h : br.Sticky) (n : Nat) :
    (br.read n).2.2.Sticky := by
  unfold BufReader.read
  split
  · split
    · intro e he
      simp at he
    next hnone =>
      split
      · intro e he
        simp [hnone] at he
      · dsimp only
        split
        · intro e he
          simp [hnone] at he
        · intro e he
          have herr := Source.read_error he
          exact ⟨herr.1.trans (Source.read_final br.src br.size).symm, herr.2⟩
  · exact h

/-- A buffered read reports an error only when nothing remains after it, and then the final
one. -/
theorem BufReader.read_error {br : BufReader} (hsticky : br.Sticky) {n : Nat} {e : CodecError}
    (h : (br.read n).2.1 = some e) :
    e = br.src.final ∧ (br.read n).2.2.remaining = [] := by
  unfold BufReader.read at h ⊢
  split at h
  next hempty =>
    have hbuf : br.buffered = [] := List.isEmpty_iff.mp hempty
    split at h
    next kept hkept =>
      cases h
      have hend := hsticky e hkept
      simp [hend.1, hend.2, BufReader.remaining, hbuf]
    next hnone =>
      split at h
      next hle =>
        have hend := Source.read_error h
        simp [hle, hend.1, hend.2, BufReader.remaining, hbuf]
      next hlt =>
        dsimp only at h
        split at h
        next hnil =>
          have hend := Source.read_error h
          simp [hlt, hnil, hend.1, hend.2, BufReader.remaining, hbuf]
        next => cases h
  next => cases h

/-- A buffered read that reports no error leaves less work. -/
theorem BufReader.read_work_lt {br : BufReader} {n : Nat} (hn : 0 < n)
    (h : (br.read n).2.1 = none) : (br.read n).2.2.work < br.work := by
  unfold BufReader.read at h ⊢
  split at h
  next hempty =>
    have hbuf : br.buffered = [] := List.isEmpty_iff.mp hempty
    split at h
    · cases h
    · split at h
      next hle =>
        have hlt := Source.read_progress hn h
        simpa [hempty, hle, BufReader.work, BufReader.remaining, hbuf] using hlt
      next hlt =>
        dsimp only at h
        split at h
        next hnil =>
          have hprogress := Source.read_progress br.size_pos h
          simpa [hempty, hlt, hnil, BufReader.work, BufReader.remaining, hbuf] using hprogress
        next hsome =>
          have hread := congrArg List.length (Source.read_flatten br.src br.size)
          have hchunks := Source.read_chunks_le br.src br.size
          generalize br.src.read br.size = result at hread hchunks hsome ⊢
          obtain ⟨bytes, err, next⟩ := result
          have hpos : 0 < bytes.length := List.length_pos_iff.mpr (by simpa using hsome)
          simp only [List.length_append] at hread hchunks
          simp only [hlt, hsome, if_true, if_false, Bool.false_eq_true, List.isEmpty_nil,
            BufReader.work, BufReader.remaining, hbuf, List.length_append, List.length_drop,
            List.length_nil]
          omega
  next hsome =>
    have hpos : 0 < br.buffered.length := List.length_pos_iff.mpr (by simpa using hsome)
    simp only [hsome, if_false, Bool.false_eq_true, BufReader.work, BufReader.remaining,
      List.length_append, List.length_drop]
    omega

/-- The loop of `io.ReadAtLeast`: read until `want` bytes are there or an error is reported. -/
def readLoop (br : BufReader) (want : Nat) (got : Bytes) :
    Bytes × Option CodecError × BufReader :=
  if _hmore : got.length < want then
    match _hread : (br.read (want - got.length)).2.1 with
    | none =>
        readLoop (br.read (want - got.length)).2.2 want
          (got ++ (br.read (want - got.length)).1)
    | some e => (got ++ (br.read (want - got.length)).1, some e,
        (br.read (want - got.length)).2.2)
  else (got, none, br)
termination_by br.work
decreasing_by exact BufReader.read_work_lt (by omega) _hread

/-- `io.ReadFull` of `want` bytes. An error is dropped once enough bytes are there, and `io.EOF`
after some of them becomes `io.ErrUnexpectedEOF`. -/
def readFull (br : BufReader) (want : Nat) : Except CodecError Bytes × BufReader :=
  let (got, err, next) := readLoop br want []
  if want ≤ got.length then (.ok got, next)
  else
    match err with
    | some .eof => (.error (if got.isEmpty then .eof else .unexpectedEOF), next)
    | some e => (.error e, next)
    | none => (.ok got, next)

/-- What the loop of `io.ReadAtLeast` returns: the bytes asked for when they are there, and all
that is left together with the final error when they are not. -/
theorem read_loop_spec (br : BufReader) (want : Nat) (got : Bytes) (hsticky : br.Sticky)
    (hgot : got.length ≤ want) :
    (readLoop br want got).1 = got ++ br.remaining.take (want - got.length) ∧
      (readLoop br want got).2.2.remaining = br.remaining.drop (want - got.length) ∧
      (readLoop br want got).2.2.Sticky ∧
      (readLoop br want got).2.2.src.final = br.src.final ∧
      (br.remaining.length < want - got.length →
        (readLoop br want got).2.1 = some br.src.final) := by
  induction br, got using readLoop.induct want with
  | case1 br got hmore hread ih =>
      have hsplit := br.read_remaining (want - got.length)
      have hshort := br.read_length_le (want - got.length)
      have hlen := congrArg List.length hsplit
      simp only [List.length_append] at hlen
      have hnext := ih (br.read_sticky hsticky _) (by simp only [List.length_append]; omega)
      rw [readLoop, dif_pos hmore]
      split
      next =>
        simp only [List.length_append] at hnext
        rw [← Nat.sub_sub] at hnext
        obtain ⟨hbytes, hrest, hkeep, hfinal, herror⟩ := hnext
        refine ⟨?_, ?_, hkeep, hfinal.trans (br.read_final _), ?_⟩
        · rw [hbytes, List.append_assoc]
          conv_rhs => rw [hsplit, List.take_append]
          rw [List.take_of_length_le hshort]
        · rw [hrest]
          conv_rhs => rw [hsplit, List.drop_append]
          rw [List.drop_of_length_le hshort, List.nil_append]
        · intro hlt
          rw [herror (by omega), br.read_final]
      next e he => simp [hread] at he
  | case2 br got hmore e hread =>
      have hsplit := br.read_remaining (want - got.length)
      have hshort := br.read_length_le (want - got.length)
      obtain ⟨hend, hrest⟩ := br.read_error hsticky hread
      rw [hrest, List.append_nil] at hsplit
      rw [readLoop, dif_pos hmore]
      split
      next he => simp [hread] at he
      next e' he =>
        have hee : e' = br.src.final := (br.read_error hsticky he).1
        refine ⟨?_, ?_, br.read_sticky hsticky _, br.read_final _, fun _ => by rw [hee]⟩
        · rw [← hsplit] at hshort ⊢
          rw [List.take_of_length_le hshort]
        · rw [← hsplit] at hshort
          rw [hrest, List.drop_of_length_le hshort]
  | case3 br got hmore =>
      have hzero : want - got.length = 0 := by omega
      rw [readLoop, dif_neg hmore, hzero]
      simp [hsticky]

/-- `io.ReadFull` depends only on the bytes still to come: it returns the first `want` of them,
or the end-of-stream error that their number calls for. -/
theorem read_full_spec (br : BufReader) (want : Nat) (hsticky : br.Sticky) :
    (readFull br want).2.remaining = br.remaining.drop want ∧
      (readFull br want).2.Sticky ∧
      (readFull br want).2.src.final = br.src.final ∧
      (readFull br want).1 =
        if want ≤ br.remaining.length then .ok (br.remaining.take want)
        else if br.src.final = .eof then
          .error (if br.remaining.isEmpty then .eof else .unexpectedEOF)
        else .error br.src.final := by
  obtain ⟨hbytes, hrest, hkeep, hfinal, herror⟩ :=
    read_loop_spec br want [] hsticky (Nat.zero_le _)
  simp only [List.length_nil, Nat.sub_zero, List.nil_append] at hbytes hrest herror
  have hlen : (readLoop br want []).1.length = min want br.remaining.length := by
    rw [hbytes, List.length_take]
  unfold readFull
  dsimp only
  by_cases henough : want ≤ br.remaining.length
  · rw [if_pos (by omega : want ≤ (readLoop br want []).1.length)]
    exact ⟨hrest, hkeep, hfinal, by rw [if_pos henough, hbytes]⟩
  · rw [if_neg (by omega : ¬ want ≤ (readLoop br want []).1.length), herror (by omega)]
    have hall : (readLoop br want []).1 = br.remaining := by
      rw [hbytes, List.take_of_length_le (by omega)]
    rw [if_neg henough, hall]
    split
    next heq =>
      have heof : br.src.final = .eof := Option.some.inj heq
      exact ⟨hrest, hkeep, hfinal, by rw [if_pos heof]⟩
    next e hne heq =>
      have hlast : br.src.final = e := Option.some.inj heq
      have hnot : br.src.final ≠ .eof := fun h => hne (hlast ▸ h)
      exact ⟨hrest, hkeep, hfinal, by rw [if_neg hnot, hlast]⟩
    next heq => cases heq

/-- `Reader`: the buffered connection and the largest payload it accepts. -/
structure Reader where
  br : BufReader
  max : UInt32

/-- `NewReader`. `bufio.NewReaderSize` never makes a buffer of fewer than sixteen bytes. -/
def newReader (src : Source) (max : UInt32) : Reader where
  br :=
    { size := Nat.max 16 (max.toNat / 8)
      buffered := []
      err := none
      src := src
      size_pos := by simp }
  max := max

/-- `Reader.ReadFrame`: the header, its checks, and only then the payload. A payload cut short
is malformed; only a connection that ends between frames reports `io.EOF`. -/
def Reader.readFrame (r : Reader) : Except CodecError Frame × Reader :=
  match readFull r.br headerSize with
  | (.error e, br) => (.error e, { r with br := br })
  | (.ok header, br) =>
      match decodeHeader header r.max with
      | .error e => (.error e, { r with br := br })
      | .ok (t, streamID, length) =>
          if length = 0 then (.ok ⟨t, streamID, []⟩, { r with br := br })
          else
            match readFull br length.toNat with
            | (.ok payload, br) => (.ok ⟨t, streamID, payload⟩, { r with br := br })
            | (.error e, br) =>
                (.error (if e = .eof ∨ e = .unexpectedEOF then .truncatedPayload length.toNat
                  else e), { r with br := br })

/-- `k` calls of `ReadFrame` that all succeed: the frames they return and the reader after
them. -/
def readFrames : Nat → Reader → Option (List Frame × Reader)
  | 0, r => some ([], r)
  | k + 1, r =>
      match r.readFrame with
      | (.error _, _) => none
      | (.ok frame, next) => (readFrames k next).map fun (frames, last) => (frame :: frames, last)

/-- The connection a writer feeds: what it has taken so far, and how many more bytes it takes
before it fails, if it ever does. -/
structure Sink where
  out : Bytes
  room : Option Nat
  deriving DecidableEq, Repr

/-- One `Write`. A write the connection cannot finish leaves a part of it behind. -/
def Sink.write (sink : Sink) (bytes : Bytes) : Option CodecError × Sink :=
  match sink.room with
  | none => (none, { sink with out := sink.out ++ bytes })
  | some n =>
      if bytes.length ≤ n then (none, ⟨sink.out ++ bytes, some (n - bytes.length)⟩)
      else (some .transport, ⟨sink.out ++ bytes.take n, some 0⟩)

/-- `Writer`: the connection and the largest payload it emits. -/
structure Writer where
  sink : Sink
  max : UInt32
  deriving DecidableEq, Repr

/-- `NewWriter` over a connection that has taken nothing yet and does not fail. -/
def newWriter (max : UInt32) : Writer := ⟨⟨[], none⟩, max⟩

/-- `Writer.WriteFrame`: the size check, the header, and the payload when there is one. The
length is converted to 32 bits before it is compared. -/
def Writer.writeFrame (w : Writer) (t : Typ) (streamID : UInt32) (payload : Bytes) :
    Option CodecError × Writer :=
  let length := UInt32.ofNat payload.length
  if w.max < length then (some (.payloadTooLarge payload.length w.max.toNat), w)
  else
    match w.sink.write (encodeHeader t streamID length) with
    | (some e, sink) => (some e, { w with sink := sink })
    | (none, sink) =>
        if payload.isEmpty then (none, { w with sink := sink })
        else
          let (err, sink) := sink.write payload
          (err, { w with sink := sink })

/-- Successive calls of `WriteFrame`, up to the first one that fails. -/
def writeFrames : Writer → List Frame → Option CodecError × Writer
  | w, [] => (none, w)
  | w, frame :: rest =>
      match w.writeFrame frame.type frame.streamID frame.payload with
      | (some e, next) => (some e, next)
      | (none, next) => writeFrames next rest

end AccessRelay.Proto
