import AccessoryController.Library.Checked
import Mathlib.Data.List.Basic

/-!
# Client frames of the emulator's WebSocket

The decoder of the frames that a browser sends. It buffers bytes as they come and answers one
frame at a time; a frame that the emulator does not accept ends the connection with the close code
of its kind. Sizes are 64 bits wide.

## Main definitions

* `ClientFrameKind`, `ClientFrame`: what the browser sent
* `readHeader`: the header at the front of a buffer
* `validUtf8`: the check of a text
* `ClientFrameDecoder.append`, `ClientFrameDecoder.next`: the decoder
* `ClientFrameDecoder.step`: one call
-/

namespace AccessoryController.Replay

/-- What a browser sent. -/
inductive ClientFrameKind
  | text | ping | pong | close | protocolError | invalidText | unsupported | tooLarge
  deriving DecidableEq, Repr

structure ClientFrame where
  kind : ClientFrameKind := .protocolError
  payload : List UInt8 := []
  deriving DecidableEq, Repr

def kFinalFragment : UInt8 := 0x80

def kReservedBits : UInt8 := 0x70

def kOpcodeBits : UInt8 := 0x0f

def kMaskBit : UInt8 := 0x80

def kLengthBits : UInt8 := 0x7f

def kMaskBytes : ℕ := 4

def kMaximumControlPayload : ℕ := 125

def kLengthMostSignificantBit : BitVec 64 := 1 <<< 63

def kCloseCodeBytes : ℕ := 2

/-- A byte of a buffer; the checked decoder shows that none is read past the end. -/
def byteAt (buffer : List UInt8) (index : ℕ) : UInt8 := buffer.getD index 0

def kindFor (opcode : UInt8) : Option ClientFrameKind :=
  if opcode = 0x1 then some .text
  else if opcode = 0x2 then some .unsupported
  else if opcode = 0x8 then some .close
  else if opcode = 0x9 then some .ping
  else if opcode = 0xA then some .pong
  else none

def controlKind (kind : ClientFrameKind) : Bool :=
  kind == .close || kind == .ping || kind == .pong

/-- A header; its size counts the masking key. The default reports a protocol error. -/
structure FrameHeader where
  kind : ClientFrameKind := .protocolError
  payloadSize : BitVec 64 := 0
  size : ℕ := 0
  deriving DecidableEq, Repr

/-- The bytes that the length of a payload takes behind the first two of its frame. -/
def lengthBytes (declared : UInt8) : ℕ :=
  if declared = 126 then 2 else if declared = 127 then 8 else 0

/-- The length that `count` bytes behind the first two give, most significant byte first. -/
def readLength (buffer : List UInt8) (count : ℕ) : BitVec 64 :=
  (List.range count).foldl (fun size index =>
    (size <<< 8) ||| (byteAt buffer (2 + index)).toBitVec.setWidth 64) 0

/-- The header at the front of a buffer; `none` while it is incomplete. -/
def readHeader (buffer : List UInt8) : Option FrameHeader :=
  if buffer.length < 2 then none
  else
    let first := byteAt buffer 0
    let second := byteAt buffer 1
    match kindFor (first &&& kOpcodeBits) with
    | none => some {}
    | some kind =>
      if first &&& kFinalFragment = 0 ∨ first &&& kReservedBits ≠ 0 ∨ second &&& kMaskBit = 0 then
        some {}
      else
        let declared := second &&& kLengthBits
        let count := lengthBytes declared
        if buffer.length < 2 + count then none
        else
          let payloadSize :=
            if count ≠ 0 then readLength buffer count else declared.toBitVec.setWidth 64
          if payloadSize &&& kLengthMostSignificantBit ≠ 0 ∨
              controlKind kind = true ∧ kMaximumControlPayload < payloadSize.toNat then some {}
          else some { kind, payloadSize, size := 2 + count + kMaskBytes }

/-- The continuation bytes of a lead byte: how many there are, and the bounds of the first. -/
def continuationOf (lead : UInt8) : Option (ℕ × UInt8 × UInt8) :=
  if lead < 0x80 then some (0, 0x80, 0xBF)
  else if 0xC2 ≤ lead ∧ lead ≤ 0xDF then some (1, 0x80, 0xBF)
  else if 0xE0 ≤ lead ∧ lead ≤ 0xEF then
    some (2, if lead = 0xE0 then 0xA0 else 0x80, if lead = 0xED then 0x9F else 0xBF)
  else if 0xF0 ≤ lead ∧ lead ≤ 0xF4 then
    some (3, if lead = 0xF0 then 0x90 else 0x80, if lead = 0xF4 then 0x8F else 0xBF)
  else none

/-- The first byte lies between the bounds, and the others are continuation bytes. -/
def validContinuation (low high : UInt8) : List UInt8 → Bool
  | [] => true
  | next :: rest =>
    if next < low ∨ high < next then false else validContinuation 0x80 0xBF rest

/-- Strict UTF-8: no overlong forms, surrogates or code points above U+10FFFF. -/
def validUtf8 : List UInt8 → Bool
  | [] => true
  | lead :: rest =>
    match continuationOf lead with
    | none => false
    | some (continuation, low, high) =>
      if rest.length < continuation then false
      else if validContinuation low high (rest.take continuation) = false then false
      else validUtf8 (rest.drop continuation)
termination_by text => text.length
decreasing_by simp only [List.length_drop, List.length_cons]; omega

/-- The status codes that an endpoint may send in a close frame. -/
def validCloseStatus (status : ℕ) : Prop :=
  1000 ≤ status ∧ status ≤ 1003 ∨ 1007 ≤ status ∧ status ≤ 1014 ∨ 3000 ≤ status ∧ status ≤ 4999

instance (status : ℕ) : Decidable (validCloseStatus status) := by
  unfold validCloseStatus
  infer_instance

/-- The kind of a complete frame. A text and the reason of a close frame are UTF-8, and the body
of a close frame is empty or a valid status with its reason. -/
def validatedKind (kind : ClientFrameKind) (payload : List UInt8) : ClientFrameKind :=
  if kind = .text then if validUtf8 payload then kind else .invalidText
  else if kind ≠ .close ∨ payload = [] then kind
  else if payload.length < kCloseCodeBytes then .protocolError
  else
    let status := (byteAt payload 0).toNat <<< 8 ||| (byteAt payload 1).toNat
    if ¬validCloseStatus status then .protocolError
    else if validUtf8 (payload.drop kCloseCodeBytes) then kind else .invalidText

/-- The close code that answers a frame; zero where it does not end the connection. -/
def closeCodeFor : ClientFrameKind → ℕ
  | .close => 1000
  | .protocolError => 1002
  | .unsupported => 1003
  | .invalidText => 1007
  | .tooLarge => 1009
  | .text | .ping | .pong => 0

structure ClientFrameDecoder where
  maxTextBytes : ℕ
  buffer : List UInt8 := []
  finished : Bool := false
  deriving DecidableEq, Repr

/-- The kind of a header for a decoder: a text over the limit is reported at once. -/
def FrameHeader.limitedKind (header : FrameHeader) (maxTextBytes : ℕ) : ClientFrameKind :=
  if header.kind = .text ∧ maxTextBytes < header.payloadSize.toNat then .tooLarge else header.kind

/-- The payload of the frame at the front of a buffer, unmasked. -/
def FrameHeader.unmasked (header : FrameHeader) (buffer : List UInt8) : List UInt8 :=
  ((buffer.drop header.size).take header.payloadSize.toNat).mapIdx fun index byte =>
    byte ^^^ byteAt buffer (header.size - kMaskBytes + index % kMaskBytes)

namespace ClientFrameDecoder

def append (d : ClientFrameDecoder) (bytes : List UInt8) : ClientFrameDecoder :=
  if d.finished then d else { d with buffer := d.buffer ++ bytes }

/-- The decoder after a frame that ends the connection. -/
def finish (d : ClientFrameDecoder) : ClientFrameDecoder :=
  { d with finished := true, buffer := [] }

/-- The next complete frame, if there is one. -/
def next (d : ClientFrameDecoder) : ClientFrameDecoder × Option ClientFrame :=
  if d.finished then (d, none)
  else
    match readHeader d.buffer with
    | none => (d, none)
    | some header =>
      let kind := header.limitedKind d.maxTextBytes
      if 1000 < closeCodeFor kind then (d.finish, some { kind })
      else
        let payloadSize := header.payloadSize.toNat
        if d.buffer.length < header.size + payloadSize then (d, none)
        else
          let unmasked := header.unmasked d.buffer
          let kind := validatedKind kind unmasked
          let payload := if 1000 < closeCodeFor kind then [] else unmasked
          (if closeCodeFor kind ≠ 0 then d.finish
            else { d with buffer := d.buffer.drop (header.size + payloadSize) },
            some { kind, payload })

end ClientFrameDecoder

/-- The calls on a decoder. -/
inductive DecoderCall
  | append (bytes : List UInt8)
  | next
  deriving DecidableEq, Repr

/-- One call; only `next` answers. -/
def ClientFrameDecoder.step (d : ClientFrameDecoder) :
    DecoderCall → ClientFrameDecoder × Option ClientFrame
  | .append bytes => (d.append bytes, none)
  | .next => d.next

end AccessoryController.Replay
