import AccessoryController.Library.BigEndian
import AccessoryController.Library.Framing
import AccessoryController.Library.Utf8
import AccessoryController.Replay.ClientFrames

/-!
# Client frames are reassembled

What the decoder answers depends on the stream of bytes alone, not on how it came in chunks nor on
when the decoder was asked. The sizes never overflow, and nothing is read past the buffered bytes.

## Main definitions

* `frameReader maxTextBytes`: the decoder as a reader of frames
* `takeFrame maxTextBytes`: what comes off the front of a buffer

## Main results

* `frames_after`: a run of the decoder reads the stream of its chunks
* `next_eq_takeFrame`: the decoder answers what comes off the front of its buffer
-/

namespace AccessoryController.Replay

open ClientFrameDecoder Machine

/-! ### Headers -/

variable {buffer : List UInt8} {header : FrameHeader} {maxTextBytes : ℕ} {d : ClientFrameDecoder}

theorem byteAt_append {index : ℕ} (inside : index < buffer.length) (behind : List UInt8) :
    byteAt (buffer ++ behind) index = byteAt buffer index :=
  List.getD_append _ _ _ _ inside

/-- The length field, as the bytes behind the first two. -/
theorem readLength_eq {count : ℕ} (inside : 2 + count ≤ buffer.length) :
    readLength buffer count = BigEndian.word 64 ((buffer.drop 2).take count) := by
  have field : (List.range count).map (fun index => byteAt buffer (2 + index)) =
      (buffer.drop 2).take count := by
    apply List.ext_getElem
    · simp only [List.length_map, List.length_range, List.length_take, List.length_drop]
      omega
    · intro index left right
      have within : 2 + index < buffer.length := by
        rw [List.length_map, List.length_range] at left
        omega
      simp [byteAt, within]
  rw [readLength, BigEndian.word, ← field, List.foldl_map]

theorem lengthBytes_le (declared : UInt8) : lengthBytes declared ≤ 8 := by
  unfold lengthBytes
  split
  · decide
  · split <;> decide

/-- More bytes behind a complete header do not change it. -/
theorem readHeader_append (complete : readHeader buffer = some header) (behind : List UInt8) :
    readHeader (buffer ++ behind) = some header := by
  unfold readHeader at complete ⊢
  split at complete
  · cases complete
  rename_i two
  rw [if_neg (by rw [List.length_append]; omega)]
  simp only [byteAt_append (show 0 < buffer.length by omega),
    byteAt_append (show 1 < buffer.length by omega)]
  cases hkind : kindFor (byteAt buffer 0 &&& kOpcodeBits) with
  | none => simpa only [hkind] using complete
  | some kind =>
    simp only [hkind] at complete ⊢
    split at complete
    · rename_i refused
      rw [if_pos refused]
      exact complete
    · rename_i accepted
      rw [if_neg accepted]
      split at complete
      · cases complete
      · rename_i whole
        rw [if_neg (by rw [List.length_append]; omega)]
        -- the length field lies in the buffer
        have same : readLength (buffer ++ behind) (lengthBytes (byteAt buffer 1 &&& kLengthBits)) =
            readLength buffer (lengthBytes (byteAt buffer 1 &&& kLengthBits)) := by
          rw [readLength_eq (by rw [List.length_append]; omega), readLength_eq (by omega),
            List.drop_append_of_le_length (by omega),
            List.take_append_of_le_length (by rw [List.length_drop]; omega)]
        rw [same]
        exact complete

/-- A header that reports no error: its kind and its sizes. -/
structure FrameHeader.Sound (header : FrameHeader) : Prop where
  kind : header.kind ≠ .protocolError ∧ header.kind ≠ .invalidText ∧ header.kind ≠ .tooLarge
  small : header.payloadSize.toNat < 2 ^ 63
  masked : kMaskBytes + 2 ≤ header.size
  narrow : header.size ≤ 14
  control : controlKind header.kind = true → header.payloadSize.toNat ≤ kMaximumControlPayload

theorem kindFor_ne {opcode : UInt8} {kind : ClientFrameKind} (known : kindFor opcode = some kind) :
    kind ≠ .protocolError ∧ kind ≠ .invalidText ∧ kind ≠ .tooLarge := by
  unfold kindFor at known
  repeat' split at known
  all_goals first | cases known; decide | cases known

/-- The most significant bit of a length is clear where it is below `2 ^ 63`. -/
theorem and_mostSignificantBit {size : BitVec 64} :
    size &&& kLengthMostSignificantBit = 0 ↔ size.toNat < 2 ^ 63 := by
  have top : kLengthMostSignificantBit = BitVec.twoPow 64 63 := by decide
  have bit : size.getLsbD 63 = decide (2 ^ 63 ≤ size.toNat) := BitVec.getLsbD_last size
  rw [top, BitVec.and_twoPow, bit, ← Nat.not_le]
  by_cases high : 2 ^ 63 ≤ size.toNat
  · simp
  · simp

theorem readHeader_sound (complete : readHeader buffer = some header) :
    header = {} ∨ header.Sound := by
  unfold readHeader at complete
  split at complete
  · cases complete
  dsimp only at complete
  split at complete
  · exact Or.inl (Option.some.inj complete).symm
  rename_i kind known
  split at complete
  · exact Or.inl (Option.some.inj complete).symm
  split at complete
  · cases complete
  have few := lengthBytes_le (byteAt buffer 1 &&& kLengthBits)
  generalize lengthBytes (byteAt buffer 1 &&& kLengthBits) = count at complete few
  generalize hsize : (if count ≠ 0 then readLength buffer count
    else (byteAt buffer 1 &&& kLengthBits).toBitVec.setWidth 64) = size at complete
  split at complete
  · exact Or.inl (Option.some.inj complete).symm
  · rename_i fine
    obtain rfl := Option.some.inj complete
    obtain ⟨clear, control⟩ := not_or.mp fine
    refine Or.inr ⟨kindFor_ne known, and_mostSignificantBit.mp (by simpa using clear), ?_, ?_, ?_⟩
    · dsimp only [kMaskBytes]
      omega
    · dsimp only [kMaskBytes]
      omega
    · intro isControl
      exact Nat.le_of_not_lt fun large => control ⟨isControl, large⟩

/-! ### The decoder as a reader -/

namespace ClientFrameDecoder

variable {d : ClientFrameDecoder} {header : FrameHeader}

/-- A frame whose header ends the connection. -/
theorem next_of_refused (live : d.finished = false) (complete : readHeader d.buffer = some header)
    (refused : 1000 < closeCodeFor (header.limitedKind d.maxTextBytes)) :
    d.next = (d.finish, some { kind := header.limitedKind d.maxTextBytes }) := by
  unfold next
  rw [live, complete]
  exact if_pos refused

/-- A frame of which the payload has not come yet. -/
theorem next_unfinished (live : d.finished = false) (complete : readHeader d.buffer = some header)
    (fine : ¬1000 < closeCodeFor (header.limitedKind d.maxTextBytes))
    (short : d.buffer.length < header.size + header.payloadSize.toNat) : d.next = (d, none) := by
  unfold next
  rw [live, complete]
  exact (if_neg fine).trans (if_pos short)

/-- The answer to a complete frame. -/
def answer (d : ClientFrameDecoder) (header : FrameHeader) : ClientFrame :=
  let kind := validatedKind (header.limitedKind d.maxTextBytes) (header.unmasked d.buffer)
  { kind, payload := if 1000 < closeCodeFor kind then [] else header.unmasked d.buffer }

theorem next_of_whole (live : d.finished = false) (complete : readHeader d.buffer = some header)
    (fine : ¬1000 < closeCodeFor (header.limitedKind d.maxTextBytes))
    (whole : header.size + header.payloadSize.toNat ≤ d.buffer.length) :
    d.next = (if closeCodeFor (d.answer header).kind ≠ 0 then d.finish
      else { d with buffer := d.buffer.drop (header.size + header.payloadSize.toNat) },
      some (d.answer header)) := by
  unfold next
  rw [live, complete]
  exact (if_neg fine).trans (if_neg (Nat.not_lt.mpr whole))

/-- What the decoder can answer. -/
theorem next_cases (live : d.finished = false) :
    d.next = (d, none) ∨
    (∃ header, readHeader d.buffer = some header ∧
      1000 < closeCodeFor (header.limitedKind d.maxTextBytes) ∧
      d.next = (d.finish, some { kind := header.limitedKind d.maxTextBytes })) ∨
    ∃ header : FrameHeader, readHeader d.buffer = some header ∧ header.Sound ∧
      ¬1000 < closeCodeFor (header.limitedKind d.maxTextBytes) ∧
      header.size + header.payloadSize.toNat ≤ d.buffer.length ∧
      d.next = (if closeCodeFor (d.answer header).kind ≠ 0 then d.finish
        else { d with buffer := d.buffer.drop (header.size + header.payloadSize.toNat) },
        some (d.answer header)) := by
  cases hheader : readHeader d.buffer with
  | none =>
    refine Or.inl ?_
    unfold next
    rw [live, hheader]
    rfl
  | some header =>
    by_cases refused : 1000 < closeCodeFor (header.limitedKind d.maxTextBytes)
    · exact Or.inr (Or.inl ⟨header, rfl, refused, next_of_refused live hheader refused⟩)
    by_cases whole : header.size + header.payloadSize.toNat ≤ d.buffer.length
    · refine Or.inr (Or.inr ⟨header, rfl, ?_, refused, whole,
        next_of_whole live hheader refused whole⟩)
      rcases readHeader_sound hheader with rfl | sound
      · exact absurd (by simp [FrameHeader.limitedKind, closeCodeFor]) refused
      · exact sound
    · exact Or.inl (next_unfinished live hheader refused (Nat.lt_of_not_le whole))

end ClientFrameDecoder

/-- The payload of a complete frame does not change with more bytes behind it. -/
theorem FrameHeader.unmasked_append (sound : header.Sound)
    (whole : header.size + header.payloadSize.toNat ≤ buffer.length) (behind : List UInt8) :
    header.unmasked (buffer ++ behind) = header.unmasked buffer := by
  have masked : 6 ≤ header.size := sound.masked
  unfold FrameHeader.unmasked
  rw [List.drop_append_of_le_length (by omega),
    List.take_append_of_le_length (by rw [List.length_drop]; omega)]
  congr 1
  funext index byte
  -- the masking key ends where the payload begins
  rw [byteAt_append]
  have := Nat.mod_lt index (show 0 < kMaskBytes by decide)
  dsimp only [kMaskBytes] at this ⊢
  omega

/-- What the decoder takes off the front of a buffer. -/
def takeFrame (maxTextBytes : ℕ) (buffer : List UInt8) : Framing.Taken UInt8 ClientFrame :=
  match ({ maxTextBytes, buffer } : ClientFrameDecoder).next with
  | (_, none) => .more
  | (d, some frame) => if d.finished then .last frame else .frame frame d.buffer

theorem takeFrame_refused (complete : readHeader buffer = some header)
    (refused : 1000 < closeCodeFor (header.limitedKind maxTextBytes)) :
    takeFrame maxTextBytes buffer = .last { kind := header.limitedKind maxTextBytes } := by
  unfold takeFrame
  rw [next_of_refused rfl complete refused]
  rfl

theorem takeFrame_whole (complete : readHeader buffer = some header)
    (fine : ¬1000 < closeCodeFor (header.limitedKind maxTextBytes))
    (whole : header.size + header.payloadSize.toNat ≤ buffer.length) :
    takeFrame maxTextBytes buffer =
      if closeCodeFor (answer { maxTextBytes, buffer } header).kind ≠ 0 then
        .last (answer { maxTextBytes, buffer } header)
      else .frame (answer { maxTextBytes, buffer } header)
        (buffer.drop (header.size + header.payloadSize.toNat)) := by
  unfold takeFrame
  rw [next_of_whole rfl complete fine whole]
  by_cases ends : closeCodeFor (answer { maxTextBytes, buffer } header).kind ≠ 0
  · rw [if_pos ends, if_pos ends]
    rfl
  · rw [if_neg ends, if_neg ends]
    rfl

/-- A buffer holds an incomplete frame, a refused header or a complete frame. -/
theorem takeFrame_cases (maxTextBytes : ℕ) (buffer : List UInt8) :
    takeFrame maxTextBytes buffer = .more ∨
    (∃ header, readHeader buffer = some header ∧
      1000 < closeCodeFor (header.limitedKind maxTextBytes)) ∨
    ∃ header : FrameHeader, readHeader buffer = some header ∧ header.Sound ∧
      ¬1000 < closeCodeFor (header.limitedKind maxTextBytes) ∧
      header.size + header.payloadSize.toNat ≤ buffer.length := by
  rcases @next_cases { maxTextBytes, buffer } rfl with
    nothing | ⟨header, complete, refused, -⟩ | ⟨header, complete, sound, fine, whole, -⟩
  · refine Or.inl ?_
    unfold takeFrame
    rw [nothing]
  · exact Or.inr (Or.inl ⟨header, complete, refused⟩)
  · exact Or.inr (Or.inr ⟨header, complete, sound, fine, whole⟩)

/-- More bytes behind a frame do not change what is taken. -/
theorem takeFrame_append (behind : List UInt8) (something : takeFrame maxTextBytes buffer ≠ .more) :
    takeFrame maxTextBytes (buffer ++ behind) =
      match takeFrame maxTextBytes buffer with
      | .more => .more
      | .frame frame rest => .frame frame (rest ++ behind)
      | .last frame => .last frame := by
  rcases takeFrame_cases maxTextBytes buffer with
    nothing | ⟨header, complete, refused⟩ | ⟨header, complete, sound, fine, whole⟩
  · exact absurd nothing something
  · rw [takeFrame_refused complete refused,
      takeFrame_refused (readHeader_append complete behind) refused]
  · have same : answer { maxTextBytes, buffer := buffer ++ behind } header =
        answer { maxTextBytes, buffer } header := by
      simp only [answer, FrameHeader.unmasked_append sound whole behind]
    rw [takeFrame_whole complete fine whole,
      takeFrame_whole (readHeader_append complete behind) fine
        (by rw [List.length_append]; omega), same, List.drop_append_of_le_length whole]
    split <;> rfl

/-- **The decoder as a reader of frames.** -/
def frameReader (maxTextBytes : ℕ) : Framing.Reader UInt8 ClientFrame where
  take := takeFrame maxTextBytes
  shorter := by
    intro buffer frame rest taken
    rcases takeFrame_cases maxTextBytes buffer with
      nothing | ⟨header, complete, refused⟩ | ⟨header, complete, sound, fine, whole⟩
    · rw [nothing] at taken
      cases taken
    · rw [takeFrame_refused complete refused] at taken
      cases taken
    · rw [takeFrame_whole complete fine whole] at taken
      split at taken
      · cases taken
      · injection taken with _ hrest
        have masked : 6 ≤ header.size := sound.masked
        rw [← hrest, List.length_drop]
        omega
  frame_append := by
    intro buffer frame rest behind taken
    rw [takeFrame_append behind (by rw [taken]; simp), taken]
  last_append := by
    intro buffer frame behind taken
    rw [takeFrame_append behind (by rw [taken]; simp), taken]

/-! ### Runs of the decoder -/

/-- The bytes that a decoder holds; none once the connection ended. -/
def ClientFrameDecoder.held (d : ClientFrameDecoder) : Option (List UInt8) :=
  if d.finished then none else some d.buffer

/-- A decoder that ended the connection holds no bytes. -/
def ClientFrameDecoder.Tidy (d : ClientFrameDecoder) : Prop := d.finished = true → d.buffer = []

/-- **What the decoder answers** is what the reader takes off its buffer. -/
theorem next_eq_takeFrame (live : d.finished = false) :
    d.next = match takeFrame d.maxTextBytes d.buffer with
      | .more => (d, none)
      | .frame frame rest => ({ d with buffer := rest }, some frame)
      | .last frame => (d.finish, some frame) := by
  have fresh : d = { maxTextBytes := d.maxTextBytes, buffer := d.buffer } := by rw [← live]
  rcases next_cases live with
    nothing | ⟨header, complete, refused, heq⟩ | ⟨header, complete, sound, fine, whole, heq⟩
  · have more : takeFrame d.maxTextBytes d.buffer = .more := by
      unfold takeFrame
      rw [← fresh, nothing]
    rw [nothing, more]
  · rw [heq, takeFrame_refused complete refused]
  · rw [heq, takeFrame_whole complete fine whole, ← fresh]
    split <;> rfl

/-- A call on the decoder as a call on the reader. -/
def DecoderCall.toReader : DecoderCall → Framing.Reader.Call UInt8
  | .append bytes => .append bytes
  | .next => .next

/-- One call on the decoder is one call on the reader. -/
theorem step_held (d : ClientFrameDecoder) (tidy : d.Tidy) (call : DecoderCall) :
    ((d.step call).1.held, (d.step call).2) =
        (frameReader d.maxTextBytes).step d.held call.toReader ∧
      (d.step call).1.maxTextBytes = d.maxTextBytes ∧ (d.step call).1.Tidy := by
  cases hfinished : d.finished with
  | true =>
    have closed : d.held = none := if_pos hfinished
    have same : d.step call = (d, none) := by
      cases call with
      | append bytes => exact congrArg (·, none) (if_pos hfinished)
      | next => exact if_pos hfinished
    rw [same, closed]
    exact ⟨rfl, rfl, tidy⟩
  | false =>
    have open_ : d.held = some d.buffer := if_neg (by simp [hfinished])
    rw [open_]
    cases call with
    | append bytes =>
      have grown : d.step (.append bytes) = ({ d with buffer := d.buffer ++ bytes }, none) :=
        congrArg (·, none) (if_neg (by simp [hfinished]))
      rw [grown]
      refine ⟨?_, rfl, fun ended => absurd (hfinished.symm.trans ended) (by decide)⟩
      simp [held, hfinished, Framing.Reader.step, DecoderCall.toReader]
    | next =>
      have asked : d.step .next = d.next := rfl
      rw [asked, next_eq_takeFrame hfinished]
      simp only [Framing.Reader.step, DecoderCall.toReader, frameReader]
      cases takeFrame d.maxTextBytes d.buffer with
      | more => exact ⟨by rw [open_], rfl, tidy⟩
      | frame frame rest =>
        refine ⟨?_, rfl, fun ended => absurd (hfinished.symm.trans ended) (by decide)⟩
        simp [held, hfinished]
      | last frame => exact ⟨rfl, rfl, fun _ => rfl⟩

/-- The bytes that came in with some calls. -/
def appendedBytes (calls : List DecoderCall) : List UInt8 :=
  calls.flatMap fun
    | .append bytes => bytes
    | .next => []

/-- The frames that some calls answered. -/
def answered (trace : List (DecoderCall × Option ClientFrame)) : List ClientFrame :=
  trace.filterMap Prod.snd

/-- A run of the decoder is a run of the reader. -/
theorem run_held (calls : List DecoderCall) (d : ClientFrameDecoder) (tidy : d.Tidy) :
    (after step d calls).held =
        after (frameReader d.maxTextBytes).step d.held (calls.map DecoderCall.toReader) ∧
      answered (trace step d calls) =
        Framing.Reader.yielded (trace (frameReader d.maxTextBytes).step d.held
          (calls.map DecoderCall.toReader)) ∧
      (after step d calls).maxTextBytes = d.maxTextBytes ∧
      (after step d calls).Tidy := by
  induction calls generalizing d with
  | nil => exact ⟨rfl, rfl, rfl, tidy⟩
  | cons call calls ih =>
    obtain ⟨same, limit, tidy'⟩ := step_held d tidy call
    obtain ⟨held, frames, limit', tidy''⟩ := ih (d.step call).1 tidy'
    rw [limit] at held frames
    have state : (d.step call).1.held =
        ((frameReader d.maxTextBytes).step d.held call.toReader).1 := by rw [← same]
    have answer : (d.step call).2 =
        ((frameReader d.maxTextBytes).step d.held call.toReader).2 := by rw [← same]
    rw [state] at held frames
    refine ⟨held, ?_, limit'.trans limit, tidy''⟩
    rw [trace, answered, List.filterMap_cons, List.map_cons, trace,
      Framing.Reader.yielded, List.filterMap_cons, answer]
    cases ((frameReader d.maxTextBytes).step d.held call.toReader).2 with
    | none => exact frames
    | some frame => exact congrArg (frame :: ·) frames

/-- **A run of the decoder reads the stream of its chunks**: the frames it answered, then those
that it still holds, are the frames of the stream. -/
theorem frames_after (maxTextBytes : ℕ) (calls : List DecoderCall) :
    (answered (trace step { maxTextBytes } calls) ++
        ((frameReader maxTextBytes).readOn
          (after step { maxTextBytes } calls).held).1,
      ((frameReader maxTextBytes).readOn
        (after step { maxTextBytes } calls).held).2) =
      (frameReader maxTextBytes).read (appendedBytes calls) := by
  obtain ⟨held, frames, -, -⟩ := run_held calls { maxTextBytes } (nomatch ·)
  rw [held, frames, Framing.Reader.read_after]
  have bytes : Framing.Reader.appended (calls.map DecoderCall.toReader) = appendedBytes calls := by
    rw [Framing.Reader.appended, List.flatMap_map, appendedBytes]
    congr 1
    funext call
    cases call <;> rfl
  show (frameReader maxTextBytes).read ([] ++ _) = _
  rw [List.nil_append, bytes]

/-- A decoder that has no frame to answer holds none. -/
theorem readOn_of_asked (asked : d.next.2 = none) :
    (frameReader d.maxTextBytes).readOn d.held = ([], d.held) := by
  cases hfinished : d.finished with
  | true =>
    rw [show d.held = none from if_pos hfinished]
    rfl
  | false =>
    rw [show d.held = some d.buffer from if_neg (by simp [hfinished])]
    rw [next_eq_takeFrame hfinished] at asked
    cases taken : takeFrame d.maxTextBytes d.buffer with
    | more => exact Framing.Reader.read_of_more taken
    | frame frame rest => rw [taken] at asked; cases asked
    | last frame => rw [taken] at asked; cases asked

theorem ClientFrameDecoder.Tidy.eq_of_held {d' : ClientFrameDecoder} (tidy : d.Tidy)
    (tidy' : d'.Tidy) (limit : d.maxTextBytes = d'.maxTextBytes) (same : d.held = d'.held) :
    d = d' := by
  obtain ⟨maxTextBytes, buffer, finished⟩ := d
  obtain ⟨maxTextBytes', buffer', finished'⟩ := d'
  cases finished <;> cases finished' <;>
    simp_all [held, Tidy]

/-- **Two runs over one stream**, each asked until it has no frame left, answer the same frames
and end in the same state. -/
theorem same_frames {calls calls' : List DecoderCall}
    (stream : appendedBytes calls = appendedBytes calls')
    (asked : (after step { maxTextBytes } calls).next.2 = none)
    (asked' : (after step { maxTextBytes } calls').next.2 = none) :
    answered (trace step { maxTextBytes } calls) =
        answered (trace step { maxTextBytes } calls') ∧
      after step { maxTextBytes } calls =
        after step { maxTextBytes } calls' := by
  obtain ⟨-, -, limit, tidy⟩ := run_held calls { maxTextBytes } (nomatch ·)
  obtain ⟨-, -, limit', tidy'⟩ := run_held calls' { maxTextBytes } (nomatch ·)
  have whole := frames_after maxTextBytes calls
  have whole' := frames_after maxTextBytes calls'
  have nothing := readOn_of_asked asked
  have nothing' := readOn_of_asked asked'
  rw [limit] at nothing
  rw [limit'] at nothing'
  rw [nothing, List.append_nil] at whole
  rw [nothing', List.append_nil, ← stream, ← whole] at whole'
  obtain ⟨frames, held⟩ := Prod.mk.inj whole'
  exact ⟨frames.symm, tidy.eq_of_held tidy' (limit.trans limit'.symm) held.symm⟩

/-- A decoder that is asked often enough has no frame left. -/
theorem exists_asked (d : ClientFrameDecoder) : ∃ n, (after step d
    (List.replicate n .next)).next.2 = none := by
  induction hlength : d.buffer.length using Nat.strongRecOn generalizing d with
  | _ length ih =>
    cases hfinished : d.finished with
    | true => exact ⟨0, congrArg Prod.snd (if_pos hfinished)⟩
    | false =>
      have answer := next_eq_takeFrame hfinished
      cases taken : takeFrame d.maxTextBytes d.buffer with
      | more =>
        rw [taken] at answer
        exact ⟨0, congrArg Prod.snd answer⟩
      | frame frame rest =>
        rw [taken] at answer
        have shorter := (frameReader d.maxTextBytes).shorter taken
        obtain ⟨n, asked⟩ := ih _ (hlength ▸ shorter) { d with buffer := rest } rfl
        refine ⟨n + 1, ?_⟩
        rw [List.replicate_succ]
        show (after step d.next.1 _).next.2 = none
        rw [answer]
        exact asked
      | last frame =>
        rw [taken] at answer
        refine ⟨1, ?_⟩
        show d.next.1.next.2 = none
        rw [answer]
        rfl

end AccessoryController.Replay
