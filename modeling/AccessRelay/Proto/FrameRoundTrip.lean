import AccessRelay.Proto.Codec

/-!
# The frame codec is an exact inverse

`scanFrame` states what reading one frame means on a plain byte string, and `read_frame_spec`
shows that `Reader.readFrame` computes it whatever the chunks. From there the two directions of
the codec are facts about byte strings: `scan_encode` reads back what was written, and
`encode_scan` recovers the written bytes from a successful read. `frame_codec_exact` puts them
together for whole sequences of frames.
-/

namespace AccessRelay.Proto

open Encoding

/-- The bytes `WriteFrame` emits for a frame. -/
def Frame.encode (frame : Frame) : Bytes :=
  encodeHeader frame.type frame.streamID (UInt32.ofNat frame.payload.length) ++ frame.payload

/-- Reading one frame off the front of a byte string that ends with `io.EOF`. -/
def scanFrame (max : UInt32) (input : Bytes) : Except CodecError (Frame × Bytes) :=
  if input.length < headerSize then .error (if input.isEmpty then .eof else .unexpectedEOF)
  else
    match decodeHeader (input.take headerSize) max with
    | .error e => .error e
    | .ok (t, streamID, length) =>
        let body := input.drop headerSize
        if body.length < length.toNat then .error (.truncatedPayload length.toNat)
        else .ok (⟨t, streamID, body.take length.toNat⟩, body.drop length.toNat)

/-- A reader whose connection ends with `io.EOF` and whose buffer is in order. -/
structure Reader.Clean (r : Reader) : Prop where
  sticky : r.br.Sticky
  final : r.br.src.final = .eof

theorem new_reader_clean {src : Source} {max : UInt32} (h : src.final = .eof) :
    (newReader src max).Clean :=
  ⟨fun e he => by simp [newReader] at he, h⟩

@[simp] theorem new_reader_remaining (src : Source) (max : UInt32) :
    (newReader src max).br.remaining = src.chunks.flatten := by
  simp [newReader, BufReader.remaining]

/-- On a clean connection `ReadFrame` is `scanFrame` of the bytes still to come: it returns the
same frame and leaves the same rest, or it reports the same error. -/
theorem read_frame_spec {r : Reader} (hclean : r.Clean) :
    (∀ frame rest, scanFrame r.max r.br.remaining = .ok (frame, rest) →
      ∃ next, r.readFrame = (.ok frame, next) ∧ next.Clean ∧ next.max = r.max ∧
        next.br.remaining = rest) ∧
    (∀ e, scanFrame r.max r.br.remaining = .error e → (r.readFrame).1 = .error e) := by
  obtain ⟨hrest, hsticky, hfinal, hvalue⟩ := read_full_spec r.br headerSize hclean.sticky
  rw [hclean.final] at hfinal hvalue
  simp only [if_true] at hvalue
  unfold Reader.readFrame scanFrame
  generalize readFull r.br headerSize = result at hrest hsticky hfinal hvalue ⊢
  obtain ⟨value, br⟩ := result
  dsimp only at hrest hsticky hfinal hvalue ⊢
  by_cases hshort : r.br.remaining.length < headerSize
  · rw [if_neg (Nat.not_le.mpr hshort)] at hvalue
    subst hvalue
    simp [hshort]
  · rw [if_pos (Nat.not_lt.mp hshort)] at hvalue
    subst hvalue
    simp only [hshort, if_false]
    cases decodeHeader (r.br.remaining.take headerSize) r.max with
    | error e => simp
    | ok fields =>
        obtain ⟨t, streamID, length⟩ := fields
        rw [← hrest]
        dsimp only
        by_cases hzero : length = 0
        · subst hzero
          simp only [if_true, UInt32.toNat_zero, Nat.not_lt_zero, if_false, List.take_zero,
            List.drop_zero]
          refine ⟨?_, by simp⟩
          rintro frame rest hok
          simp only [Except.ok.injEq, Prod.mk.injEq] at hok
          obtain ⟨rfl, rfl⟩ := hok
          exact ⟨_, rfl, ⟨hsticky, hfinal⟩, rfl, rfl⟩
        · obtain ⟨hrest', hsticky', hfinal', hvalue'⟩ := read_full_spec br length.toNat hsticky
          rw [hfinal] at hfinal' hvalue'
          simp only [hzero, if_true, if_false] at hvalue' ⊢
          generalize readFull br length.toNat = result' at hrest' hsticky' hfinal' hvalue' ⊢
          obtain ⟨value', br'⟩ := result'
          dsimp only at hrest' hsticky' hfinal' hvalue' ⊢
          by_cases hcut : br.remaining.length < length.toNat
          · rw [if_neg (Nat.not_le.mpr hcut)] at hvalue'
            subst hvalue'
            cases hempty : br.remaining.isEmpty <;> simp [hcut]
          · rw [if_pos (Nat.not_lt.mp hcut)] at hvalue'
            subst hvalue'
            simp only [hcut, if_false]
            refine ⟨?_, by simp⟩
            rintro frame rest hok
            simp only [Except.ok.injEq, Prod.mk.injEq] at hok
            obtain ⟨rfl, rfl⟩ := hok
            exact ⟨_, rfl, ⟨hsticky', hfinal'⟩, rfl, hrest'⟩

/-- A frame within the limit is read back from its own encoding, whatever follows it. -/
theorem scan_encode {max : UInt32} {frame : Frame} (h : frame.payload.length ≤ max.toNat)
    (rest : Bytes) : scanFrame max (frame.encode ++ rest) = .ok (frame, rest) := by
  have hlt : frame.payload.length < 2 ^ 32 := lt_of_le_of_lt h max.toNat_lt
  have hnat : (UInt32.ofNat frame.payload.length).toNat = frame.payload.length := by
    rw [UInt32.toNat_ofNat', Nat.mod_eq_of_lt hlt]
  have hle : UInt32.ofNat frame.payload.length ≤ max := by
    rw [UInt32.le_iff_toNat_le, hnat]
    exact h
  have hheader := length_encode_header frame.type frame.streamID
    (UInt32.ofNat frame.payload.length)
  unfold scanFrame Frame.encode
  rw [if_neg (by simp only [List.length_append, hheader]; omega), List.append_assoc,
    List.take_append_of_le_length (by omega), List.take_of_length_le (by omega),
    decode_encode_header _ _ _ _ hle, ← hheader, List.drop_left]
  simp [hnat]

/-- A frame that was read is within the limit, and the bytes it was read from are its own
encoding. -/
theorem encode_scan {max : UInt32} {input rest : Bytes} {frame : Frame}
    (h : scanFrame max input = .ok (frame, rest)) :
    input = frame.encode ++ rest ∧ frame.payload.length ≤ max.toNat := by
  unfold scanFrame at h
  split at h
  · cases h
  next hlen =>
    split at h
    · cases h
    next t streamID length hheader =>
      dsimp only at h
      split at h
      · cases h
      next hbody =>
        simp only [Except.ok.injEq, Prod.mk.injEq] at h
        obtain ⟨rfl, rfl⟩ := h
        obtain ⟨hencode, hmax⟩ :=
          encode_decode_header (by rw [List.length_take]; omega) hheader
        have hpayload : ((input.drop headerSize).take length.toNat).length = length.toNat := by
          rw [List.length_take]
          omega
        refine ⟨?_, ?_⟩
        · rw [Frame.encode, hpayload, UInt32.ofNat_toNat, hencode, List.append_assoc,
            List.take_append_drop, List.take_append_drop]
        · rw [hpayload]
          exact UInt32.le_iff_toNat_le.mp hmax

/-- The scan of a byte string reports `io.EOF` exactly when the string is empty. -/
theorem scan_eof_iff {max : UInt32} {input : Bytes} :
    scanFrame max input = .error .eof ↔ input = [] := by
  constructor
  · intro h
    unfold scanFrame at h
    split at h
    · cases hempty : input.isEmpty with
      | true => exact List.isEmpty_iff.mp hempty
      | false => simp [hempty] at h
    · split at h
      next e hheader =>
        cases h
        exact absurd hheader (decode_header_ne_eof _ _)
      · dsimp only at h
        split at h <;> cases h
  · rintro rfl
    simp [scanFrame, headerSize]

/-- A clean reader reports `io.EOF` exactly when no byte is left. -/
theorem read_frame_eof_iff {r : Reader} (hclean : r.Clean) :
    (r.readFrame).1 = .error .eof ↔ r.br.remaining = [] := by
  obtain ⟨hok, herror⟩ := read_frame_spec hclean
  refine Iff.trans ?_ (scan_eof_iff : scanFrame r.max r.br.remaining = .error .eof ↔ _)
  constructor
  · intro h
    cases hscan : scanFrame r.max r.br.remaining with
    | error e =>
        rw [herror e hscan] at h
        cases h
        rfl
    | ok result =>
        obtain ⟨next, hread, -⟩ := hok result.1 result.2 hscan
        simp [hread] at h
  · exact herror .eof

/-- A writer over a connection that does not fail appends the encoding of each frame within its
limit. -/
theorem write_frames_out {w : Writer} {frames : List Frame} (hroom : w.sink.room = none)
    (h : ∀ frame ∈ frames, frame.payload.length ≤ w.max.toNat) :
    (writeFrames w frames).1 = none ∧
      (writeFrames w frames).2.sink.out =
        w.sink.out ++ (frames.map Frame.encode).flatten := by
  induction frames generalizing w with
  | nil => simp [writeFrames]
  | cons frame rest ih =>
      have hmax := h frame (by simp)
      have hlt : frame.payload.length < 2 ^ 32 := lt_of_le_of_lt hmax w.max.toNat_lt
      have hfits : ¬ w.max < UInt32.ofNat frame.payload.length := by
        rw [UInt32.lt_iff_toNat_lt, UInt32.toNat_ofNat', Nat.mod_eq_of_lt hlt]
        omega
      have hwrite : w.writeFrame frame.type frame.streamID frame.payload =
          (none, { w with sink := { w.sink with out := w.sink.out ++ frame.encode } }) := by
        cases hempty : frame.payload.isEmpty with
        | true =>
            rw [List.isEmpty_iff] at hempty
            simp [Writer.writeFrame, Sink.write, hroom, Frame.encode, hempty]
        | false =>
            simp [Writer.writeFrame, hfits, Sink.write, hroom, Frame.encode, hempty]
      have hnext := ih (w := { w with sink := { w.sink with out := w.sink.out ++ frame.encode } })
        hroom (fun f hf => h f (by simp [hf]))
      simp only [writeFrames, hwrite]
      exact ⟨hnext.1, by rw [hnext.2]; simp⟩

/-- Reading the encodings of a list of frames returns the list and leaves what follows. -/
theorem read_frames_encode {frames : List Frame} {r : Reader} {rest : Bytes}
    (hclean : r.Clean) (h : ∀ frame ∈ frames, frame.payload.length ≤ r.max.toNat)
    (hinput : r.br.remaining = (frames.map Frame.encode).flatten ++ rest) :
    ∃ last, readFrames frames.length r = some (frames, last) ∧ last.Clean ∧
      last.br.remaining = rest := by
  induction frames generalizing r with
  | nil => exact ⟨r, rfl, hclean, by simpa using hinput⟩
  | cons frame frames ih =>
      have hscan : scanFrame r.max r.br.remaining =
          .ok (frame, (frames.map Frame.encode).flatten ++ rest) := by
        rw [hinput, List.map_cons, List.flatten_cons, List.append_assoc]
        exact scan_encode (h frame (by simp)) _
      obtain ⟨next, hread, hnext, hmax, hremaining⟩ := (read_frame_spec hclean).1 _ _ hscan
      obtain ⟨last, hlast, hclean', hrest⟩ := ih hnext
        (fun f hf => by rw [hmax]; exact h f (by simp [hf])) hremaining
      exact ⟨last, by simp [readFrames, hread, hlast], hclean', hrest⟩

/-- Frames that were read are within the limit, and the bytes consumed are their encodings. -/
theorem encode_read_frames {k : Nat} {r last : Reader} {frames : List Frame}
    (hclean : r.Clean) (h : readFrames k r = some (frames, last)) :
    r.br.remaining = (frames.map Frame.encode).flatten ++ last.br.remaining ∧
      (∀ frame ∈ frames, frame.payload.length ≤ r.max.toNat) ∧ last.Clean := by
  induction k generalizing r frames with
  | zero =>
      simp only [readFrames, Option.some.injEq, Prod.mk.injEq] at h
      obtain ⟨rfl, rfl⟩ := h
      exact ⟨by simp, by simp, hclean⟩
  | succ k ih =>
      obtain ⟨hok, herror⟩ := read_frame_spec hclean
      cases hscan : scanFrame r.max r.br.remaining with
      | error e =>
          have hfail := herror e hscan
          simp only [readFrames] at h
          split at h
          · cases h
          next hread => simp [hread] at hfail
      | ok result =>
          obtain ⟨frame, rest⟩ := result
          obtain ⟨next, hread, hnext, hmax, hremaining⟩ := hok frame rest hscan
          obtain ⟨hbytes, hlimit⟩ := encode_scan hscan
          simp only [readFrames, hread, Option.map_eq_some_iff, Prod.mk.injEq] at h
          obtain ⟨⟨frames', last'⟩, hrest, rfl, rfl⟩ := h
          obtain ⟨hconsumed, hlimits, hlast⟩ := ih hnext hrest
          refine ⟨?_, ?_, hlast⟩
          · rw [hbytes, ← hremaining, hconsumed]
            simp
          · rw [hmax] at hlimits
            simpa [hlimit] using hlimits

/-- Reading does not change the limit of a reader. -/
theorem read_frame_max (r : Reader) : (r.readFrame).2.max = r.max := by
  unfold Reader.readFrame
  split
  · rfl
  · split
    · rfl
    · split
      · rfl
      · split <;> rfl

theorem read_frames_max {k : Nat} {r last : Reader} {frames : List Frame}
    (h : readFrames k r = some (frames, last)) : last.max = r.max := by
  induction k generalizing r frames with
  | zero =>
      simp only [readFrames, Option.some.injEq, Prod.mk.injEq] at h
      rw [← h.2]
  | succ k ih =>
      have hmax := read_frame_max r
      simp only [readFrames] at h
      split at h
      · cases h
      next frame next hread =>
        rw [hread] at hmax
        obtain ⟨⟨rest, last'⟩, hrest, hpair⟩ := Option.map_eq_some_iff.mp h
        cases hpair
        exact (ih hrest).trans hmax

/-- The frame codec is an exact inverse. Frames within the limit, written one after another and
delivered in any chunks, are read back as exactly that list and then a bare `io.EOF`.
Conversely, on any finite input, the bytes that successful reads consumed are the encoding of
the frames they returned, every payload is within the limit, and the next read reports `io.EOF`
if and only if the input ends there. -/
theorem frame_codec_exact (max : UInt32) :
    (∀ (frames : List Frame) (src : Source), src.final = .eof →
      (∀ frame ∈ frames, frame.payload.length ≤ max.toNat) →
      src.chunks.flatten = (writeFrames (newWriter max) frames).2.sink.out →
      (writeFrames (newWriter max) frames).1 = none ∧
        ∃ last, readFrames frames.length (newReader src max) = some (frames, last) ∧
          (last.readFrame).1 = .error .eof) ∧
    (∀ (src : Source) (k : Nat) (frames : List Frame) (last : Reader), src.final = .eof →
      readFrames k (newReader src max) = some (frames, last) →
      src.chunks.flatten =
          (writeFrames (newWriter max) frames).2.sink.out ++ last.br.remaining ∧
        (writeFrames (newWriter max) frames).1 = none ∧
        (∀ frame ∈ frames, frame.payload.length ≤ max.toNat) ∧
        ((last.readFrame).1 = .error .eof ↔ last.br.remaining = [])) := by
  constructor
  · intro frames src hfinal hlimits hinput
    obtain ⟨hdone, hout⟩ := write_frames_out (w := newWriter max) rfl hlimits
    refine ⟨hdone, ?_⟩
    have hremaining : (newReader src max).br.remaining =
        (frames.map Frame.encode).flatten ++ [] := by
      rw [new_reader_remaining, hinput, hout]
      simp [newWriter]
    obtain ⟨last, hread, hclean, hrest⟩ :=
      read_frames_encode (new_reader_clean hfinal) hlimits hremaining
    exact ⟨last, hread, (read_frame_eof_iff hclean).mpr hrest⟩
  · intro src k frames last hfinal hread
    obtain ⟨hconsumed, hlimits, hclean⟩ := encode_read_frames (new_reader_clean hfinal) hread
    obtain ⟨hdone, hout⟩ := write_frames_out (w := newWriter max) rfl hlimits
    refine ⟨?_, hdone, hlimits, read_frame_eof_iff hclean⟩
    rw [new_reader_remaining] at hconsumed
    rw [hconsumed, hout]
    simp [newWriter]

/-- Two frames of one and of no payload byte, delivered in three chunks that split the first
header; both directions apply to them. -/
theorem frame_codec_exact_two :
    ∃ last, readFrames 2 (newReader ⟨[[1], [0x12, 0, 0, 0, 7, 0, 0, 0, 1, 42, 1, 0x20],
        [0, 0, 0, 0, 0, 0, 0, 0]], .eof, false⟩ 64) =
        some ([⟨.streamData, 7, [42]⟩, ⟨.ping, 0, []⟩], last) ∧
      (last.readFrame).1 = .error .eof ∧ last.br.remaining = [] := by
  obtain ⟨last, hread, heof⟩ :=
    ((frame_codec_exact 64).1 [⟨.streamData, 7, [42]⟩, ⟨.ping, 0, []⟩]
      ⟨[[1], [0x12, 0, 0, 0, 7, 0, 0, 0, 1, 42, 1, 0x20], [0, 0, 0, 0, 0, 0, 0, 0]], .eof, false⟩
      rfl (by decide) (by decide)).2
  obtain ⟨-, -, -, hend⟩ := (frame_codec_exact 64).2 _ _ _ _ rfl hread
  exact ⟨last, hread, heof, hend.mp heof⟩

end AccessRelay.Proto
