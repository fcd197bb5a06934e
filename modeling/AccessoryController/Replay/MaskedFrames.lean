import AccessoryController.Replay.ClientFrameLaw
import AccessoryController.Replay.ValidUtf8

/-!
# Masked frames

A browser sends a message as one final frame: an opcode, the length of the payload in one of three
forms, a masking key and the payload under the key. Whatever the form, the key and what comes
behind the frame, the decoder answers the opcode with the payload where the emulator accepts the
message, and else ends the connection.

## Main definitions

* `Opcode`, `LengthForm`: the choices of a frame
* `maskedFrame`: the bytes of a frame
* `Accepted`: the messages that the emulator accepts

## Main results

* `readHeader_maskedFrame`: the header of a frame
* `takeFrame_accepted`, `takeFrame_rejected`: what the decoder takes off its front
-/

namespace AccessoryController.Replay

/-- The opcodes of the frames that are not fragments. -/
inductive Opcode
  | text | binary | close | ping | pong
  deriving DecidableEq, Repr

def Opcode.code : Opcode → UInt8
  | .text => 0x1
  | .binary => 0x2
  | .close => 0x8
  | .ping => 0x9
  | .pong => 0xA

def Opcode.kind : Opcode → ClientFrameKind
  | .text => .text
  | .binary => .unsupported
  | .close => .close
  | .ping => .ping
  | .pong => .pong

/-- The forms of a length: in the second byte itself, or in two or eight bytes behind it. -/
inductive LengthForm
  | short | medium | long
  deriving DecidableEq, Repr

/-- The form has room for the length. -/
def LengthForm.Fits : LengthForm → ℕ → Prop
  | .short, n => n < 126
  | .medium, n => n < 2 ^ 16
  | .long, n => n < 2 ^ 63

/-- What the second byte declares. -/
def LengthForm.declared : LengthForm → ℕ → UInt8
  | .short, n => UInt8.ofNat n
  | .medium, _ => 126
  | .long, _ => 127

/-- How many bytes the length takes behind the second. -/
def LengthForm.count : LengthForm → ℕ
  | .short => 0
  | .medium => 2
  | .long => 8

/-- A final frame under a masking key, as a browser encodes it. -/
def maskedFrame (opcode : Opcode) (form : LengthForm) (key : Fin 4 → UInt8)
    (payload : List UInt8) : List UInt8 :=
  (kFinalFragment ||| opcode.code) :: (kMaskBit ||| form.declared payload.length) ::
    (BigEndian.bytes form.count payload.length ++ List.ofFn key ++
      payload.mapIdx fun index byte => byte ^^^ key (Fin.ofNat 4 index))

/-- The body of a close frame: nothing, or a status that an endpoint may send with a reason. -/
def CloseBody (payload : List UInt8) : Prop :=
  payload = [] ∨ ∃ high low reason, payload = high :: low :: Utf8.encode reason ∧
    validCloseStatus (high.toNat * 2 ^ 8 + low.toNat)

/-- The messages that the emulator accepts: a text in UTF-8 within its limit, a close with a
proper body, a ping or a pong. The payload of a control frame has at most 125 bytes. -/
def Accepted (maxTextBytes : ℕ) (opcode : Opcode) (payload : List UInt8) : Prop :=
  match opcode with
  | .text => payload.length ≤ maxTextBytes ∧ ∃ chars, payload = Utf8.encode chars
  | .binary => False
  | .close => payload.length ≤ kMaximumControlPayload ∧ CloseBody payload
  | .ping | .pong => payload.length ≤ kMaximumControlPayload

/-! ### The header of a frame -/

theorem first_byte (opcode : Opcode) :
    kindFor ((kFinalFragment ||| opcode.code) &&& kOpcodeBits) = some opcode.kind ∧
      (kFinalFragment ||| opcode.code) &&& kFinalFragment ≠ 0 ∧
      (kFinalFragment ||| opcode.code) &&& kReservedBits = 0 := by
  cases opcode <;> decide

theorem second_byte {declared : UInt8} (small : declared.toNat < 128) :
    (kMaskBit ||| declared) &&& kMaskBit ≠ 0 ∧
      (kMaskBit ||| declared) &&& kLengthBits = declared := by
  have all : ∀ n < 128, (kMaskBit ||| UInt8.ofNat n) &&& kMaskBit ≠ 0 ∧
      (kMaskBit ||| UInt8.ofNat n) &&& kLengthBits = UInt8.ofNat n := by
    decide +kernel
  simpa using all declared.toNat small

variable {form : LengthForm} {payload : List UInt8}

theorem LengthForm.declared_lt {n : ℕ} (fits : form.Fits n) : (form.declared n).toNat < 128 := by
  cases form with
  | short =>
    have fits : n < 126 := fits
    rw [LengthForm.declared, UInt8.toNat_ofNat']
    omega
  | medium =>
    show (126 : UInt8).toNat < 128
    decide
  | long =>
    show (127 : UInt8).toNat < 128
    decide

theorem lengthBytes_declared {n : ℕ} (fits : form.Fits n) :
    lengthBytes (form.declared n) = form.count := by
  cases form with
  | short =>
    have fits : n < 126 := fits
    have byte : (UInt8.ofNat n).toNat = n := by rw [UInt8.toNat_ofNat']; omega
    have different : ∀ b : UInt8, 126 ≤ b.toNat → UInt8.ofNat n ≠ b := by
      rintro b large rfl
      omega
    rw [LengthForm.declared, lengthBytes, if_neg (different 126 (by decide)),
      if_neg (different 127 (by decide))]
    rfl
  | medium => rfl
  | long => rfl

/-- What comes behind the first two bytes of a frame. -/
def frameTail (form : LengthForm) (key : Fin 4 → UInt8) (payload behind : List UInt8) :
    List UInt8 :=
  BigEndian.bytes form.count payload.length ++ (List.ofFn key ++
    (payload.mapIdx (fun index byte => byte ^^^ key (Fin.ofNat 4 index)) ++ behind))

theorem maskedFrame_append (opcode : Opcode) (form : LengthForm) (key : Fin 4 → UInt8)
    (payload behind : List UInt8) : maskedFrame opcode form key payload ++ behind =
      (kFinalFragment ||| opcode.code) :: (kMaskBit ||| form.declared payload.length) ::
        frameTail form key payload behind := by
  simp only [maskedFrame, frameTail, List.cons_append, List.append_assoc]

/-- The length that a frame declares. -/
theorem readLength_maskedFrame (key : Fin 4 → UInt8) (fits : form.Fits payload.length)
    (first second : UInt8) (behind : List UInt8) :
    (if form.count ≠ 0 then
        readLength (first :: second :: frameTail form key payload behind) form.count
      else (form.declared payload.length).toBitVec.setWidth 64) =
        BitVec.ofNat 64 payload.length := by
  rw [← BitVec.toNat_inj, BitVec.toNat_ofNat]
  have field : form.count ≠ 0 → (readLength (first :: second :: frameTail form key payload behind)
      form.count) = BigEndian.word 64 (BigEndian.bytes form.count payload.length) := by
    intro _
    rw [readLength_eq (by simp only [frameTail, List.length_cons, List.length_append,
      BigEndian.length_bytes]; omega)]
    show BigEndian.word 64 ((frameTail form key payload behind).take form.count) = _
    rw [frameTail, List.take_left' (BigEndian.length_bytes _ _)]
  cases form with
  | short =>
    have fits : payload.length < 126 := fits
    rw [if_neg (by simp [LengthForm.count]), BitVec.toNat_setWidth, UInt8.toNat_toBitVec,
      LengthForm.declared, UInt8.toNat_ofNat']
    omega
  | medium =>
    have fits : payload.length < 2 ^ (8 * 2) := fits
    rw [if_pos (by decide), field (by decide), BigEndian.toNat_word (by
      rw [BigEndian.length_bytes]; decide)]
    rw [show LengthForm.medium.count = 2 from rfl, BigEndian.value_bytes fits]
    omega
  | long =>
    have fits : payload.length < 2 ^ 63 := fits
    rw [if_pos (by decide), field (by decide), BigEndian.toNat_word (by
      rw [BigEndian.length_bytes]; decide)]
    rw [show LengthForm.long.count = 8 from rfl, BigEndian.value_bytes (by omega)]
    omega

theorem LengthForm.Fits.length (fits : form.Fits payload.length) :
    payload.length < 2 ^ 63 ∧ (BitVec.ofNat 64 payload.length).toNat = payload.length := by
  have small : payload.length < 2 ^ 63 := by
    cases form <;> exact Nat.lt_of_lt_of_le fits (by decide)
  exact ⟨small, by rw [BitVec.toNat_ofNat, Nat.mod_eq_of_lt (by omega)]⟩

/-- **The header that a decoder reads of a frame** is the one that the frame was made with, unless
the payload is too long for a control frame. -/
theorem readHeader_maskedFrame {opcode : Opcode} (key : Fin 4 → UInt8)
    (fits : form.Fits payload.length) (behind : List UInt8) :
    readHeader (maskedFrame opcode form key payload ++ behind) =
      if controlKind opcode.kind = true ∧ kMaximumControlPayload < payload.length then some {}
      else some
        { kind := opcode.kind
          payloadSize := BitVec.ofNat 64 payload.length
          size := 2 + form.count + kMaskBytes } := by
  obtain ⟨known, final, reserved⟩ := first_byte opcode
  obtain ⟨masked, declared⟩ := second_byte (form.declared_lt fits)
  obtain ⟨small, size⟩ := fits.length
  rw [maskedFrame_append]
  have length := readLength_maskedFrame key fits (kFinalFragment ||| opcode.code)
    (kMaskBit ||| form.declared payload.length) behind
  have room : 2 + form.count ≤ ((kFinalFragment ||| opcode.code) ::
      (kMaskBit ||| form.declared payload.length) :: frameTail form key payload behind).length := by
    simp only [frameTail, List.length_cons, List.length_append, BigEndian.length_bytes]
    omega
  generalize hbuffer : ((kFinalFragment ||| opcode.code) ::
    (kMaskBit ||| form.declared payload.length) :: frameTail form key payload behind) = buffer
    at length room ⊢
  have first : byteAt buffer 0 = kFinalFragment ||| opcode.code := by rw [← hbuffer]; rfl
  have second : byteAt buffer 1 = kMaskBit ||| form.declared payload.length := by
    rw [← hbuffer]; rfl
  unfold readHeader
  rw [if_neg (by omega), first, second]
  dsimp only
  rw [known]
  dsimp only
  rw [if_neg (by simp [final, reserved, masked]), declared, lengthBytes_declared fits,
    if_neg (by omega), length, size]
  have clear := and_mostSignificantBit.mpr (show (BitVec.ofNat 64 payload.length).toNat < 2 ^ 63 by
    rw [size]; exact small)
  simp only [clear, ne_eq, not_true_eq_false, false_or]

/-- The payload comes out from under the key. -/
theorem unmasked_maskedFrame (opcode : Opcode) (form : LengthForm) (key : Fin 4 → UInt8)
    (fits : form.Fits payload.length) (behind : List UInt8) :
    (FrameHeader.mk opcode.kind (BitVec.ofNat 64 payload.length)
      (2 + form.count + kMaskBytes)).unmasked (maskedFrame opcode form key payload ++ behind) =
      payload := by
  have size := fits.length.2
  have whole : maskedFrame opcode form key payload ++ behind =
      ((kFinalFragment ||| opcode.code) :: (kMaskBit ||| form.declared payload.length) ::
        BigEndian.bytes form.count payload.length) ++ (List.ofFn key ++
          (payload.mapIdx (fun index byte => byte ^^^ key (Fin.ofNat 4 index)) ++ behind)) := by
    simp only [maskedFrame, List.cons_append, List.append_assoc]
  generalize hprefix : ((kFinalFragment ||| opcode.code) ::
    (kMaskBit ||| form.declared payload.length) ::
      BigEndian.bytes form.count payload.length) = front at whole
  have length : front.length = 2 + form.count := by
    rw [← hprefix, List.length_cons, List.length_cons, BigEndian.length_bytes]
    omega
  -- behind the header the masked payload begins
  have masked : ((maskedFrame opcode form key payload ++ behind).drop
      (2 + form.count + kMaskBytes)).take payload.length =
        payload.mapIdx fun index byte => byte ^^^ key (Fin.ofNat 4 index) := by
    rw [whole, ← List.drop_drop, List.drop_left' length, List.drop_left' (by
      rw [List.length_ofFn]; rfl), List.take_left' (by rw [List.length_mapIdx])]
  have keyAt : ∀ index, byteAt (maskedFrame opcode form key payload ++ behind)
      (2 + form.count + kMaskBytes - kMaskBytes + index % kMaskBytes) =
        key (Fin.ofNat 4 index) := by
    intro index
    have inside : index % 4 < 4 := Nat.mod_lt _ (by decide)
    rw [whole, byteAt, Nat.add_sub_cancel, ← length, List.getD_append_right _ _ _ _ (by omega),
      Nat.add_sub_cancel_left, List.getD_append _ _ _ _ (by rw [List.length_ofFn]; exact inside),
      List.getD_eq_getElem _ _ (by rw [List.length_ofFn]; exact inside), List.getElem_ofFn]
    rfl
  unfold FrameHeader.unmasked
  rw [size, masked]
  simp only [keyAt]
  apply List.ext_getElem
  · rw [List.length_mapIdx, List.length_mapIdx]
  · intro index left right
    rw [List.getElem_mapIdx, List.getElem_mapIdx, UInt8.xor_assoc, UInt8.xor_self, UInt8.xor_zero]

/-! ### What the decoder answers -/

/-- The kind that reports a close body: the status, where there is one, comes before the reason. -/
def closeRejection : List UInt8 → ClientFrameKind
  | high :: low :: _ =>
    if validCloseStatus (high.toNat * 2 ^ 8 + low.toNat) then .invalidText else .protocolError
  | _ => .protocolError

/-- The kind that reports a message which is not accepted. -/
def rejection (maxTextBytes : ℕ) (opcode : Opcode) (payload : List UInt8) : ClientFrameKind :=
  match opcode with
  | .text => if maxTextBytes < payload.length then .tooLarge else .invalidText
  | .binary => .unsupported
  | .ping | .pong => .protocolError
  | .close =>
    if kMaximumControlPayload < payload.length then .protocolError else closeRejection payload

/-- The check of a close body. -/
theorem validatedKind_close (payload : List UInt8) :
    (CloseBody payload → validatedKind .close payload = .close) ∧
      (¬CloseBody payload → validatedKind .close payload = closeRejection payload) := by
  match payload with
  | [] => exact ⟨fun _ => rfl, fun h => absurd (Or.inl rfl) h⟩
  | [byte] =>
    refine ⟨fun h => ?_, fun _ => ?_⟩
    · rcases h with h | ⟨high, low, reason, h, -⟩ <;> simp at h
    · simp [validatedKind, closeRejection, kCloseCodeBytes]
  | high :: low :: reason =>
    have status : (byteAt (high :: low :: reason) 0).toNat <<< 8 |||
        (byteAt (high :: low :: reason) 1).toNat = high.toNat * 2 ^ 8 + low.toNat := by
      show high.toNat <<< 8 ||| low.toNat = _
      rw [← Nat.shiftLeft_add_eq_or_of_lt low.toNat_lt, Nat.shiftLeft_eq]
    have checked : validatedKind .close (high :: low :: reason) =
        if ¬validCloseStatus (high.toNat * 2 ^ 8 + low.toNat) then .protocolError
        else if validUtf8 reason then .close else .invalidText := by
      unfold validatedKind
      rw [status, if_neg (by decide), if_neg (by simp), if_neg (by simp [kCloseCodeBytes])]
      rfl
    have body : CloseBody (high :: low :: reason) ↔
        validCloseStatus (high.toNat * 2 ^ 8 + low.toNat) ∧ validUtf8 reason = true := by
      rw [validUtf8_iff]
      constructor
      · rintro (h | ⟨high', low', chars, h, valid⟩)
        · cases h
        · injection h with hhigh h
          injection h with hlow hreason
          subst hhigh hlow
          exact ⟨valid, chars, hreason⟩
      · rintro ⟨valid, chars, rfl⟩
        exact Or.inr ⟨high, low, chars, rfl, valid⟩
    rw [checked, body]
    constructor
    · rintro ⟨valid, text⟩
      rw [if_neg (not_not_intro valid), if_pos text]
    · intro refused
      rw [closeRejection]
      by_cases valid : validCloseStatus (high.toNat * 2 ^ 8 + low.toNat)
      · rw [if_neg (not_not_intro valid), if_pos valid, if_neg fun text => refused ⟨valid, text⟩]
      · rw [if_pos valid, if_neg valid]

section Answer

variable {maxTextBytes : ℕ} {opcode : Opcode} {form : LengthForm} {payload : List UInt8}

/-- A control frame with too long a payload. -/
theorem takeFrame_longControl (key : Fin 4 → UInt8) (fits : form.Fits payload.length)
    (behind : List UInt8)
    (long : controlKind opcode.kind = true ∧ kMaximumControlPayload < payload.length) :
    takeFrame maxTextBytes (maskedFrame opcode form key payload ++ behind) =
      .last { kind := .protocolError } := by
  have complete := @readHeader_maskedFrame form payload opcode key fits behind
  rw [if_pos long] at complete
  have kind : FrameHeader.limitedKind {} maxTextBytes = .protocolError := by
    simp [FrameHeader.limitedKind]
  rw [takeFrame_refused complete (by rw [kind]; decide), kind]

/-- A frame of which the header is read. -/
theorem takeFrame_maskedFrame (key : Fin 4 → UInt8) (fits : form.Fits payload.length)
    (behind : List UInt8)
    (short : ¬(controlKind opcode.kind = true ∧ kMaximumControlPayload < payload.length)) :
    takeFrame maxTextBytes (maskedFrame opcode form key payload ++ behind) =
      if opcode = .text ∧ maxTextBytes < payload.length then .last { kind := .tooLarge }
      else if opcode = .binary then .last { kind := .unsupported }
      else
        let kind := validatedKind opcode.kind payload
        let frame : ClientFrame :=
          { kind, payload := if 1000 < closeCodeFor kind then [] else payload }
        if closeCodeFor kind ≠ 0 then .last frame else .frame frame behind := by
  have complete := @readHeader_maskedFrame form payload opcode key fits behind
  rw [if_neg short] at complete
  have size := fits.length.2
  have kind : (FrameHeader.mk opcode.kind (BitVec.ofNat 64 payload.length)
      (2 + form.count + kMaskBytes)).limitedKind maxTextBytes =
        if opcode = .text ∧ maxTextBytes < payload.length then .tooLarge else opcode.kind := by
    have isText : opcode.kind = .text ↔ opcode = .text := by cases opcode <;> decide
    simp only [FrameHeader.limitedKind, size, isText]
  by_cases large : opcode = .text ∧ maxTextBytes < payload.length
  · rw [if_pos large] at kind ⊢
    rw [takeFrame_refused complete (by rw [kind]; decide), kind]
  rw [if_neg large] at kind ⊢
  by_cases binary : opcode = .binary
  · subst binary
    rw [takeFrame_refused complete (by rw [kind]; decide), kind]
    rfl
  rw [if_neg binary]
  have length : (maskedFrame opcode form key payload).length =
      2 + form.count + kMaskBytes + payload.length := by
    simp only [maskedFrame, List.length_cons, List.length_append, BigEndian.length_bytes,
      List.length_ofFn, List.length_mapIdx, kMaskBytes]
    omega
  have answer : ClientFrameDecoder.answer
      { maxTextBytes, buffer := maskedFrame opcode form key payload ++ behind }
      (FrameHeader.mk opcode.kind (BitVec.ofNat 64 payload.length)
        (2 + form.count + kMaskBytes)) =
      { kind := validatedKind opcode.kind payload
        payload := if 1000 < closeCodeFor (validatedKind opcode.kind payload) then []
          else payload } := by
    simp only [ClientFrameDecoder.answer, kind, unmasked_maskedFrame opcode form key fits behind]
  have whole : 2 + form.count + kMaskBytes + (BitVec.ofNat 64 payload.length).toNat ≤
      (maskedFrame opcode form key payload ++ behind).length := by
    rw [size, List.length_append, length]
    omega
  rw [takeFrame_whole complete
    (by rw [kind]; cases opcode <;> first | decide | contradiction) whole, answer]
  rw [size, ← length, List.drop_left]

/-- **A message that the emulator accepts** decodes to its opcode and payload, and what comes
behind it is left; a close ends the connection. -/
theorem takeFrame_accepted (key : Fin 4 → UInt8) (fits : form.Fits payload.length)
    (behind : List UInt8) (accepted : Accepted maxTextBytes opcode payload) :
    takeFrame maxTextBytes (maskedFrame opcode form key payload ++ behind) =
      if opcode = .close then .last ⟨opcode.kind, payload⟩
      else .frame ⟨opcode.kind, payload⟩ behind := by
  cases opcode with
  | text =>
    obtain ⟨room, text⟩ := accepted
    have valid : validatedKind .text payload = .text := by
      rw [validatedKind, if_pos rfl, if_pos ((validUtf8_iff payload).mpr text)]
    rw [takeFrame_maskedFrame key fits behind (by simp [Opcode.kind, controlKind]),
      if_neg (by omega), if_neg (by decide)]
    simp only [Opcode.kind, valid]
    rfl
  | binary => exact accepted.elim
  | close =>
    obtain ⟨short, body⟩ := accepted
    have valid := (validatedKind_close payload).1 body
    rw [takeFrame_maskedFrame key fits behind (by omega), if_neg (by simp), if_neg (by decide)]
    simp only [Opcode.kind, valid]
    rfl
  | ping =>
    have short : payload.length ≤ kMaximumControlPayload := accepted
    rw [takeFrame_maskedFrame key fits behind (by omega), if_neg (by simp), if_neg (by decide)]
    rfl
  | pong =>
    have short : payload.length ≤ kMaximumControlPayload := accepted
    rw [takeFrame_maskedFrame key fits behind (by omega), if_neg (by simp), if_neg (by decide)]
    rfl

/-- **A message that it does not accept** ends the connection with the kind that says why. -/
theorem takeFrame_rejected (key : Fin 4 → UInt8) (fits : form.Fits payload.length)
    (behind : List UInt8) (rejected : ¬Accepted maxTextBytes opcode payload) :
    takeFrame maxTextBytes (maskedFrame opcode form key payload ++ behind) =
        .last { kind := rejection maxTextBytes opcode payload } ∧
      1000 < closeCodeFor (rejection maxTextBytes opcode payload) := by
  cases opcode with
  | text =>
    rw [takeFrame_maskedFrame key fits behind (by simp [Opcode.kind, controlKind])]
    by_cases large : maxTextBytes < payload.length
    · rw [if_pos ⟨rfl, large⟩, rejection, if_pos large]
      exact ⟨rfl, by decide⟩
    · have invalid : ¬validUtf8 payload = true := fun valid =>
        rejected ⟨Nat.le_of_not_lt large, (validUtf8_iff payload).mp valid⟩
      have kind : validatedKind .text payload = .invalidText := by
        rw [validatedKind, if_pos rfl, if_neg invalid]
      rw [if_neg (fun h => large h.2), if_neg (by decide), rejection, if_neg large]
      simp only [Opcode.kind, kind]
      exact ⟨rfl, by decide⟩
  | binary =>
    rw [takeFrame_maskedFrame key fits behind (by simp [Opcode.kind, controlKind]),
      if_neg (by simp), if_pos rfl]
    exact ⟨rfl, show 1000 < closeCodeFor .unsupported by decide⟩
  | close =>
    have ends : 1000 < closeCodeFor (closeRejection payload) := by
      unfold closeRejection
      split
      · split <;> decide
      · decide
    by_cases long : kMaximumControlPayload < payload.length
    · have kind : rejection maxTextBytes .close payload = .protocolError := if_pos long
      rw [takeFrame_longControl key fits behind ⟨rfl, long⟩, kind]
      exact ⟨rfl, by decide⟩
    · have kind : rejection maxTextBytes .close payload = closeRejection payload := if_neg long
      have checked := (validatedKind_close payload).2 fun body =>
        rejected ⟨Nat.le_of_not_lt long, body⟩
      rw [takeFrame_maskedFrame key fits behind (fun h => long h.2), if_neg (by simp),
        if_neg (by decide), kind]
      simp only [Opcode.kind, checked, if_pos ends]
      exact ⟨if_pos (by omega), ends⟩
  | ping =>
    have long : kMaximumControlPayload < payload.length := Nat.lt_of_not_le rejected
    rw [takeFrame_longControl key fits behind ⟨rfl, long⟩]
    exact ⟨rfl, show 1000 < closeCodeFor .protocolError by decide⟩
  | pong =>
    have long : kMaximumControlPayload < payload.length := Nat.lt_of_not_le rejected
    rw [takeFrame_longControl key fits behind ⟨rfl, long⟩]
    exact ⟨rfl, show 1000 < closeCodeFor .protocolError by decide⟩

end Answer

end AccessoryController.Replay
