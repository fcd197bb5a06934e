import AccessoryController.Library.Outcome
import AccessoryController.Replay.MaskedFrames

/-!
# Client frames within their bounds

The decoder once more, with every sum, product and difference of its sizes checked against 64 bits
and every read against the end of its buffer. No check ever fails, and the answers are those of
the decoder.

## Main definitions

* `readHeaderChecked`, `ClientFrameDecoder.nextChecked`: the checked decoder

## Main results

* `nextChecked_eq`: it answers what the decoder answers
* `frame_reassembly`: the law of the decoder
-/

namespace AccessoryController.Replay

open ClientFrameDecoder Checked Machine

def readLengthChecked (buffer : List UInt8) (count : ℕ) : Checked ℕ :=
  (List.range count).foldlM (fun size index => do
    let offset ← add 64 2 index
    let byte ← read buffer offset
    let shifted ← mul 64 size (2 ^ 8)
    add 64 shifted byte.toNat) 0

/-- The length that a frame declares, in its second byte or behind it. -/
def declaredSizeChecked (buffer : List UInt8) (declared : UInt8) (count : ℕ) : Checked ℕ :=
  if count ≠ 0 then readLengthChecked buffer count else pure declared.toNat

def readHeaderChecked (buffer : List UInt8) : Checked (Option FrameHeader) :=
  if buffer.length < 2 then pure none
  else do
    let first ← read buffer 0
    let second ← read buffer 1
    match kindFor (first &&& kOpcodeBits) with
    | none => pure (some {})
    | some kind =>
      if first &&& kFinalFragment = 0 ∨ first &&& kReservedBits ≠ 0 ∨ second &&& kMaskBit = 0 then
        pure (some {})
      else do
        let declared := second &&& kLengthBits
        let count := lengthBytes declared
        let start ← add 64 2 count
        if buffer.length < start then pure none
        else do
          let declaredSize ← declaredSizeChecked buffer declared count
          let payloadSize := BitVec.ofNat 64 declaredSize
          if payloadSize &&& kLengthMostSignificantBit ≠ 0 ∨
              controlKind kind = true ∧ kMaximumControlPayload < payloadSize.toNat then
            pure (some {})
          else do
            let size ← add 64 start kMaskBytes
            pure (some { kind, payloadSize, size })

/-- The payload under the key; the buffer holds the whole frame. -/
def FrameHeader.unmaskedChecked (header : FrameHeader) (buffer : List UInt8) :
    Checked (List UInt8) :=
  if buffer.length < header.size then .error .indexRange
  else do
    let masked := (buffer.drop header.size).take header.payloadSize.toNat
    let maskOffset ← sub header.size kMaskBytes
    (List.range masked.length).mapM fun index => do
      let byte ← read masked index
      let offset ← add 64 maskOffset (index % kMaskBytes)
      let key ← read buffer offset
      pure (byte ^^^ key)

def ClientFrameDecoder.nextChecked (d : ClientFrameDecoder) :
    Checked (ClientFrameDecoder × Option ClientFrame) :=
  if d.finished then pure (d, none)
  else do
    match ← readHeaderChecked d.buffer with
    | none => pure (d, none)
    | some header =>
      let kind := header.limitedKind d.maxTextBytes
      if 1000 < closeCodeFor kind then pure (d.finish, some { kind })
      else do
        let total ← add 64 header.size header.payloadSize.toNat
        if d.buffer.length < total then pure (d, none)
        else do
          let unmasked ← header.unmaskedChecked d.buffer
          let kind := validatedKind kind unmasked
          let payload := if 1000 < closeCodeFor kind then [] else unmasked
          pure (if closeCodeFor kind ≠ 0 then d.finish
            else { d with buffer := d.buffer.drop total }, some { kind, payload })

variable {buffer : List UInt8}

theorem read_byteAt {index : ℕ} (inside : index < buffer.length) :
    read buffer index = .ok (byteAt buffer index) := read_eq inside

/-- The length field never leaves 64 bits. -/
theorem readLengthChecked_eq {count : ℕ} (few : count ≤ 8) (inside : 2 + count ≤ buffer.length) :
    readLengthChecked buffer count = .ok (BigEndian.value ((buffer.drop 2).take count)) := by
  induction count with
  | zero => rfl
  | succ count ih =>
    have within : 2 + count < buffer.length := by omega
    have start := ih (by omega) (by omega)
    rw [readLengthChecked] at start
    have below := BigEndian.value_lt ((buffer.drop 2).take count)
    have length : ((buffer.drop 2).take count).length = count := by
      rw [List.length_take, List.length_drop]
      omega
    rw [length] at below
    have room : 2 ^ (8 * count) * 2 ^ 8 ≤ 2 ^ 64 := by
      rw [← Nat.pow_add]
      exact Nat.pow_le_pow_right (by decide) (by omega)
    have small := (byteAt buffer (2 + count)).toNat_lt
    have more : (buffer.drop 2).take (count + 1) =
        (buffer.drop 2).take count ++ [byteAt buffer (2 + count)] := by
      rw [List.take_add_one, List.getElem?_drop, List.getElem?_eq_getElem within, byteAt,
        List.getD_eq_getElem _ _ within]
      rfl
    rw [readLengthChecked, List.range_succ, List.foldlM_append, start, ok_bind, more,
      BigEndian.value_snoc]
    simp only [List.foldlM_cons, List.foldlM_nil]
    rw [add_eq (by omega), ok_bind, read_byteAt within, ok_bind,
      mul_eq (by omega), ok_bind, add_eq (by omega)]
    rfl

/-- The length as the decoder has it. -/
theorem declaredSizeChecked_eq {declared : UInt8} {count : ℕ} (few : count ≤ 8)
    (inside : 2 + count ≤ buffer.length) :
    declaredSizeChecked buffer declared count =
      .ok (if count ≠ 0 then readLength buffer count else declared.toBitVec.setWidth 64).toNat := by
  unfold declaredSizeChecked
  split
  · have fits : 8 * ((buffer.drop 2).take count).length ≤ 64 := by
      rw [List.length_take, List.length_drop]
      omega
    rw [readLengthChecked_eq few inside, readLength_eq inside, BigEndian.toNat_word fits]
  · have small := declared.toNat_lt
    rw [BitVec.toNat_setWidth, UInt8.toNat_toBitVec, Nat.mod_eq_of_lt (by omega)]
    rfl

theorem readHeaderChecked_eq (buffer : List UInt8) :
    readHeaderChecked buffer = .ok (readHeader buffer) := by
  unfold readHeaderChecked readHeader
  by_cases short : buffer.length < 2
  · rw [if_pos short, if_pos short]
    rfl
  rw [if_neg short, if_neg short, read_byteAt (by omega), ok_bind, read_byteAt (by omega),
    ok_bind]
  dsimp only
  cases kindFor (byteAt buffer 0 &&& kOpcodeBits) with
  | none => rfl
  | some kind =>
    dsimp only
    split
    · rfl
    have few := lengthBytes_le (byteAt buffer 1 &&& kLengthBits)
    rw [add_eq (by omega), ok_bind]
    by_cases cut : buffer.length < 2 + lengthBytes (byteAt buffer 1 &&& kLengthBits)
    · rw [if_pos cut, if_pos cut]
      rfl
    rw [if_neg cut, if_neg cut, declaredSizeChecked_eq few (Nat.le_of_not_lt cut),
      ok_bind, BitVec.ofNat_toNat, BitVec.setWidth_eq]
    generalize (if lengthBytes (byteAt buffer 1 &&& kLengthBits) ≠ 0 then
      readLength buffer (lengthBytes (byteAt buffer 1 &&& kLengthBits))
      else (byteAt buffer 1 &&& kLengthBits).toBitVec.setWidth 64) = payloadSize
    split
    · rfl
    · rw [add_eq (by dsimp only [kMaskBytes]; omega)]
      rfl

theorem unmaskedChecked_eq {header : FrameHeader} (sound : header.Sound)
    (whole : header.size + header.payloadSize.toNat ≤ buffer.length) :
    header.unmaskedChecked buffer = .ok (header.unmasked buffer) := by
  have masked : kMaskBytes + 2 ≤ header.size := sound.masked
  have narrow := sound.narrow
  have key : kMaskBytes = 4 := rfl
  unfold FrameHeader.unmaskedChecked FrameHeader.unmasked
  rw [if_neg (by omega), sub_eq (by omega)]
  generalize hbytes : (buffer.drop header.size).take header.payloadSize.toNat = bytes
  show (List.range bytes.length).mapM _ = _
  rw [Outcome.mapM_eq_ok_map (g := fun index => byteAt bytes index ^^^
    byteAt buffer (header.size - kMaskBytes + index % kMaskBytes))]
  · congr 1
    apply List.ext_getElem
    · rw [List.length_map, List.length_range, List.length_mapIdx]
    · intro index left right
      rw [List.length_mapIdx] at right
      rw [List.getElem_map, List.getElem_range, List.getElem_mapIdx, byteAt,
        List.getD_eq_getElem _ _ right]
  · intro index hindex
    have inside := Nat.mod_lt index (show 0 < kMaskBytes by decide)
    rw [read_byteAt (List.mem_range.mp hindex), ok_bind, add_eq (by omega),
      ok_bind, read_byteAt (by omega)]
    rfl

/-- **No check of the decoder fails**, and the checks change no answer. -/
theorem nextChecked_eq (d : ClientFrameDecoder) : d.nextChecked = .ok d.next := by
  unfold nextChecked next
  split
  · rfl
  rw [readHeaderChecked_eq, ok_bind]
  cases hheader : readHeader d.buffer with
  | none => rfl
  | some header =>
    dsimp only
    by_cases refused : 1000 < closeCodeFor (header.limitedKind d.maxTextBytes)
    · rw [if_pos refused, if_pos refused]
      rfl
    have sound : header.Sound := by
      rcases readHeader_sound hheader with rfl | sound
      · exact absurd (by simp [FrameHeader.limitedKind, closeCodeFor]) refused
      · exact sound
    have small := sound.small
    have narrow := sound.narrow
    rw [if_neg refused, if_neg refused, add_eq (by omega), ok_bind]
    by_cases short : d.buffer.length < header.size + header.payloadSize.toNat
    · rw [if_pos short, if_pos short]
      rfl
    · rw [if_neg short, if_neg short, unmaskedChecked_eq sound (Nat.le_of_not_lt short)]
      rfl

/-! ### The law of the decoder -/

/-- A message with the choices that its frame leaves open. -/
structure Message where
  opcode : Opcode
  form : LengthForm
  key : Fin 4 → UInt8
  payload : List UInt8

def Message.bytes (m : Message) : List UInt8 := maskedFrame m.opcode m.form m.key m.payload

def Message.frame (m : Message) : ClientFrame := ⟨m.opcode.kind, m.payload⟩

/-- A message that a browser can encode: its form has room for the length. -/
def Message.Encodable (m : Message) : Prop := m.form.Fits m.payload.length

/-- The frame of a message at the front of a decoder's buffer. -/
theorem next_message {d : ClientFrameDecoder} (live : d.finished = false) {m : Message}
    (encodable : m.Encodable) {behind : List UInt8} (buffer : d.buffer = m.bytes ++ behind) :
    (Accepted d.maxTextBytes m.opcode m.payload → d.next =
      (if m.opcode = .close then d.finish else { d with buffer := behind }, some m.frame)) ∧
    (¬Accepted d.maxTextBytes m.opcode m.payload →
      d.next = (d.finish, some { kind := rejection d.maxTextBytes m.opcode m.payload }) ∧
        1000 < closeCodeFor (rejection d.maxTextBytes m.opcode m.payload)) := by
  rw [next_eq_takeFrame live, buffer]
  constructor
  · intro accepted
    rw [Message.bytes, takeFrame_accepted m.key encodable behind accepted]
    by_cases close : m.opcode = .close
    · rw [if_pos close, if_pos close]
      rfl
    · rw [if_neg close, if_neg close]
      rfl
  · intro rejected
    obtain ⟨taken, ends⟩ := takeFrame_rejected m.key encodable behind rejected
    rw [Message.bytes, taken]
    exact ⟨rfl, ends⟩

/-- A stream that begins with accepted messages. -/
theorem read_messages {maxTextBytes : ℕ} {messages : List Message}
    (encodable : ∀ m ∈ messages, m.Encodable)
    (accepted : ∀ m ∈ messages, Accepted maxTextBytes m.opcode m.payload ∧ m.opcode ≠ .close)
    (behind : List UInt8) :
    (frameReader maxTextBytes).read (messages.flatMap Message.bytes ++ behind) =
      (messages.map Message.frame ++ ((frameReader maxTextBytes).read behind).1,
        ((frameReader maxTextBytes).read behind).2) := by
  induction messages with
  | nil => rfl
  | cons m messages ih =>
    obtain ⟨encodableHead, encodableTail⟩ := List.forall_mem_cons.mp encodable
    obtain ⟨⟨acceptedHead, notClose⟩, acceptedTail⟩ := List.forall_mem_cons.mp accepted
    have taken := takeFrame_accepted m.key encodableHead
      (messages.flatMap Message.bytes ++ behind) acceptedHead
    rw [if_neg notClose] at taken
    rw [List.flatMap_cons, List.append_assoc, Framing.Reader.read_of_frame taken,
      ih encodableTail acceptedTail]
    rfl

/-- A frame that ends the connection leaves the decoder finished. -/
theorem finished_of_closing {d : ClientFrameDecoder} {frame : ClientFrame}
    (answered : d.next.2 = some frame) (ends : closeCodeFor frame.kind ≠ 0) :
    d.next.1.finished = true := by
  cases hfinished : d.finished with
  | true =>
    rw [show d.next = (d, none) from if_pos hfinished] at answered
    cases answered
  | false =>
    rcases next_cases hfinished with
      nothing | ⟨header, -, -, heq⟩ | ⟨header, -, -, -, -, heq⟩
    · rw [nothing] at answered
      cases answered
    · rw [heq]
      rfl
    · rw [heq] at answered ⊢
      obtain rfl := Option.some.inj answered
      rw [if_pos ends]
      rfl

/-- **Frames are reassembled.** The frames that a decoder answers, and the state it ends in, depend
on the stream alone; accepted messages decode to their opcodes and payloads, and any other ends
the connection with the kind that says why; a connection that ended answers nothing more; and no
size overflows and no read leaves the buffer. -/
theorem frame_reassembly (maxTextBytes : ℕ) :
    (∀ calls calls' : List DecoderCall, appendedBytes calls = appendedBytes calls' →
      (after step { maxTextBytes } calls).next.2 = none →
      (after step { maxTextBytes } calls').next.2 = none →
      answered (trace step { maxTextBytes } calls) =
          answered (trace step { maxTextBytes } calls') ∧
        after step { maxTextBytes } calls =
          after step { maxTextBytes } calls') ∧
    (∀ d : ClientFrameDecoder, ∃ n, (after step d
      (List.replicate n .next)).next.2 = none) ∧
    (∀ (before later : List DecoderCall) (frame : ClientFrame),
      (after step { maxTextBytes } before).next.2 = some frame →
      closeCodeFor frame.kind ≠ 0 →
      answered (trace step
        (after step { maxTextBytes } before).next.1 later) = []) ∧
    (∀ (calls : List DecoderCall) (messages : List Message),
      appendedBytes calls = messages.flatMap Message.bytes → (∀ m ∈ messages, m.Encodable) →
      (∀ m ∈ messages, Accepted maxTextBytes m.opcode m.payload ∧ m.opcode ≠ .close) →
      (after step { maxTextBytes } calls).next.2 = none →
      answered (trace step { maxTextBytes } calls) =
        messages.map Message.frame) ∧
    (∀ (d : ClientFrameDecoder) (m : Message) (behind : List UInt8), d.finished = false →
      d.maxTextBytes = maxTextBytes → m.Encodable → d.buffer = m.bytes ++ behind →
      (Accepted maxTextBytes m.opcode m.payload → d.next =
        (if m.opcode = .close then d.finish else { d with buffer := behind }, some m.frame)) ∧
      (¬Accepted maxTextBytes m.opcode m.payload →
        d.next = (d.finish, some { kind := rejection maxTextBytes m.opcode m.payload }) ∧
          1000 < closeCodeFor (rejection maxTextBytes m.opcode m.payload))) ∧
    ∀ d : ClientFrameDecoder, d.nextChecked = .ok d.next := by
  refine ⟨fun calls calls' => same_frames, exists_asked, ?_, ?_, ?_, nextChecked_eq⟩
  · intro before later frame answer ends
    obtain ⟨-, -, -, tidy⟩ := run_held before { maxTextBytes } (nomatch ·)
    obtain ⟨-, -, tidy'⟩ := step_held _ tidy .next
    obtain ⟨-, frames, -, -⟩ := run_held later _ tidy'
    have closed : (next (after step
        { maxTextBytes } before)).1.held = none := if_pos (finished_of_closing answer ends)
    show answered (trace _ (step _ .next).1 later) = []
    rw [frames, show (step _ .next).1.held = none from closed]
    exact (Framing.Reader.closed _).2
  · intro calls messages stream encodable accepted asked
    obtain ⟨-, -, limit, -⟩ := run_held calls { maxTextBytes } (nomatch ·)
    have whole := frames_after maxTextBytes calls
    have nothing := readOn_of_asked asked
    rw [limit] at nothing
    have empty : (frameReader maxTextBytes).read [] = ([], some []) :=
      Framing.Reader.read_of_more (show takeFrame maxTextBytes [] = .more by rfl)
    have read := read_messages encodable accepted []
    simp only [empty, List.append_nil] at read
    rw [nothing, List.append_nil, stream, read] at whole
    exact congrArg Prod.fst whole
  · rintro d m behind live rfl encodable buffer
    exact next_message live encodable buffer

/-- A ping with two bytes of payload. -/
def greeting : Message := ⟨.ping, .short, fun i => UInt8.ofNat i, [0x48, 0x69]⟩

/-- The frame of the ping in two chunks. -/
theorem frame_reassembly_greeting :
    answered (trace step { maxTextBytes := 20 }
      [.append (greeting.bytes.take 3), .next, .append (greeting.bytes.drop 3), .next]) =
      [greeting.frame] :=
  (frame_reassembly 20).2.2.2.1 _ [greeting] (by decide)
    (by simp [Message.Encodable, greeting, LengthForm.Fits])
    (by simp [greeting, Accepted, kMaximumControlPayload]) (by decide)

/-- A binary message does not come out with its payload. -/
theorem binary_payload_lost : ¬∀ (maxTextBytes : ℕ) (m : Message), m.Encodable →
    (mk maxTextBytes m.bytes false).next.2 = some m.frame := by
  intro decodes
  have lost := decodes 20 ⟨.binary, .short, fun i => UInt8.ofNat i, [7]⟩
    (by simp [Message.Encodable, LengthForm.Fits])
  exact absurd lost (by decide)

end AccessoryController.Replay
