import AccessoryController.Library.Checked
import AccessoryController.VehicleCore.Contracts

/-!
# Raw fields of a frame

A signal is a run of payload bits. The runtime walks it from its start bit, upward for Intel fields
and from the top of each byte for Motorola fields, and fails at the first bit that the frame does
not carry.

## Main definitions

* `RawValue`: the bits of a field, with its width and its signedness
* `extractRawValue`: the walk
* `magnitudeOf`: the sign and the magnitude of a raw value
* `compareRaw`, `inRange`: order and membership
* `rawDelta`: the difference of two values of a field
* `signedValue`: a raw value as a signed word
* `convertDelta`: the checks of a conversion, up to its difference
-/

namespace AccessoryController.ProfileRuntime

open VehicleCore Checked

inductive ByteOrder
  | intel | motorola
  deriving DecidableEq, Repr

/-- The bits of a field, right-aligned. -/
structure RawValue where
  bits : BitVec 64 := 0
  bitLength : ℕ := 0
  isSigned : Bool := false
  deriving DecidableEq, Repr

def kPayloadBits : ℕ := kCanClassicPayloadBytes * 8

/-- One bit of the payload. -/
def payloadBit (data : Vector UInt8 kCanClassicPayloadBytes) (position : ℕ) :
    Checked (BitVec 8) := do
  let byte ← get data (position / 8)
  pure (byte.toBitVec >>> (position % 8) &&& 1)

/-- The walk of a field, from the bit at `position`; `none` when a bit is missing. -/
def extractBits (data : Vector UInt8 kCanClassicPayloadBytes) (payloadBits : ℕ)
    (byteOrder : ByteOrder) : ℕ → ℕ → ℕ → BitVec 64 → Checked (Option (BitVec 64))
  | 0, _, _, bits => pure (some bits)
  | remaining + 1, index, position, bits =>
    if payloadBits ≤ position then pure none
    else do
      let bit ← payloadBit data position
      match byteOrder with
      | .intel =>
        let placed ← shiftLeft (bit.setWidth 64) index
        extractBits data payloadBits byteOrder remaining (index + 1) (position + 1)
          (bits ||| placed)
      | .motorola =>
        let shifted ← shiftLeft bits 1
        extractBits data payloadBits byteOrder remaining (index + 1)
          (if position % 8 = 0 then position + 15 else position - 1) (shifted ||| bit.setWidth 64)

/-- The raw value of a field; `none` for a frame that does not carry the field. -/
def extractRawValue (frame : RawCanFrame) (startBit bitLength : ℕ) (byteOrder : ByteOrder)
    (isSigned : Bool) : Checked (Option RawValue) :=
  if kCanClassicPayloadBytes < frame.dlc ∨ frame.remoteRequest = true ∨
      frame.identifierFormat ≠ .standard ∨ 0x7ff < frame.identifier ∨ bitLength = 0 ∨
      64 < bitLength ∨ kPayloadBits ≤ startBit then pure none
  else do
    let bits ← extractBits frame.data (frame.dlc * 8) byteOrder bitLength 0 startBit 0
    pure (bits.map fun bits => ⟨bits, bitLength, isSigned⟩)

/-! ### Arithmetic of raw values

Raw values are compared and subtracted as a sign and a magnitude, so that no field, not even a
signed one of 64 bits, leaves the unsigned words. The difference to a pivot is handed to the
floating-point conversion in two halves of 32 bits, which every long double holds exactly. -/

def widthMask (width : ℕ) : Checked (BitVec 64) :=
  if width = 64 then pure (BitVec.allOnes 64)
  else do
    let bit ← shiftLeft (1 : BitVec 64) width
    let mask ← sub bit.toNat 1
    pure (BitVec.ofNat 64 mask)

def validRaw (raw : RawValue) : Prop := 0 < raw.bitLength ∧ raw.bitLength ≤ 64

instance (raw : RawValue) : Decidable (validRaw raw) := inferInstanceAs (Decidable (_ ∧ _))

/-- Whether two raw values are values of one field. -/
def sameRawShape (left right : RawValue) : Checked Bool :=
  if ¬ (validRaw left ∧ left.bitLength = right.bitLength ∧ left.isSigned = right.isSigned) then
    pure false
  else do
    let mask ← widthMask left.bitLength
    if left.bits &&& ~~~mask ≠ 0 then pure false
    else do
      let mask ← widthMask right.bitLength
      pure (decide (right.bits &&& ~~~mask = 0))

structure SignedMagnitude where
  magnitude : ℕ := 0
  negative : Bool := false
  deriving DecidableEq, Repr

def magnitudeOf (raw : RawValue) : Checked (Option SignedMagnitude) :=
  if ¬ validRaw raw then pure none
  else do
    let mask ← widthMask raw.bitLength
    if raw.bits &&& ~~~mask ≠ 0 then pure none
    else if raw.isSigned = false then pure (some ⟨raw.bits.toNat, false⟩)
    else do
      let shift ← sub raw.bitLength 1
      let signBit ← shiftLeft (1 : BitVec 64) shift
      if raw.bits &&& signBit = 0 then pure (some ⟨raw.bits.toNat, false⟩)
      else do
        let mask ← widthMask raw.bitLength
        let magnitude ← add 64 (~~~raw.bits &&& mask).toNat 1
        pure (some ⟨magnitude, true⟩)

/-- The order of two magnitudes: negative, zero or positive. -/
def compareMagnitudes (left right : SignedMagnitude) : ℤ :=
  if left.negative ≠ right.negative then if left.negative then -1 else 1
  else if left.magnitude = right.magnitude then 0
  else
    let leftIsLess := left.magnitude < right.magnitude
    if left.negative then if leftIsLess then 1 else -1 else if leftIsLess then -1 else 1

def compareRaw (left right : RawValue) : Checked (Option ℤ) := do
  if ← sameRawShape left right then
    let leftValue ← magnitudeOf left
    let rightValue ← magnitudeOf right
    match leftValue, rightValue with
    | some leftValue, some rightValue => pure (some (compareMagnitudes leftValue rightValue))
    | _, _ => pure none
  else pure none

structure RawRange where
  minimum : RawValue := {}
  maximum : RawValue := {}

def sameRangeShape (raw : RawValue) (range : RawRange) : Checked Bool := do
  if ← sameRawShape raw range.minimum then sameRawShape raw range.maximum else pure false

/-- Membership in a range; `none` when the range does not fit the value. -/
def inRange (raw : RawValue) (range : RawRange) : Checked (Option Bool) := do
  if ← sameRangeShape raw range then
    match ← compareRaw range.minimum range.maximum with
    | none => pure none
    | some rangeOrder =>
      if 0 < rangeOrder then pure none
      else
        match ← compareRaw raw range.minimum with
        | none => pure none
        | some lowerOrder =>
          match ← compareRaw raw range.maximum with
          | none => pure none
          | some upperOrder => pure (some (decide (0 ≤ lowerOrder ∧ upperOrder ≤ 0)))
  else pure none

/-- A whole number in a long double, by its sign and its magnitude. -/
structure WholeDouble where
  negative : Bool := false
  magnitude : ℕ := 0
  deriving DecidableEq, Repr

def kLowWordScale : ℕ := 4294967296

structure ExtendedValue where
  high : WholeDouble := {}
  low : WholeDouble := {}
  deriving DecidableEq, Repr

/-- The two halves of a difference. -/
def ExtendedValue.ofMagnitude (magnitude : ℕ) (negative : Bool) : ExtendedValue :=
  ⟨⟨negative, (magnitude >>> 32) * kLowWordScale⟩, ⟨negative, magnitude &&& 0xffffffff⟩⟩

/-- The distance of two values of one sign: the smaller magnitude is taken from the larger. -/
def sameSignDistance (rawValue pivotValue : SignedMagnitude) (ordering : ℤ) : Checked ℕ :=
  if rawValue.negative then
    if 0 ≤ ordering then sub pivotValue.magnitude rawValue.magnitude
    else sub rawValue.magnitude pivotValue.magnitude
  else if 0 ≤ ordering then sub rawValue.magnitude pivotValue.magnitude
  else sub pivotValue.magnitude rawValue.magnitude

/-- The difference of a value and the pivot of its field. -/
def rawDelta (raw pivot : RawValue) : Checked (Option ExtendedValue) := do
  if ← sameRawShape raw pivot then
    match ← magnitudeOf raw, ← magnitudeOf pivot with
    | some rawValue, some pivotValue =>
      let ordering := compareMagnitudes rawValue pivotValue
      if rawValue.negative = pivotValue.negative then
        let magnitude ← sameSignDistance rawValue pivotValue ordering
        pure (some (.ofMagnitude magnitude (decide (ordering < 0))))
      else do
        let room ← sub (2 ^ 64 - 1) pivotValue.magnitude
        if room < rawValue.magnitude then pure none
        else
          let magnitude ← add 64 rawValue.magnitude pivotValue.magnitude
          pure (some (.ofMagnitude magnitude rawValue.negative))
    | _, _ => pure none
  else pure none

/-- A raw value of a signed field as a signed word. -/
def signedValue (raw : RawValue) : Checked (Option ℤ) := do
  match ← magnitudeOf raw with
  | none => pure none
  | some value =>
    if raw.isSigned = false then pure none
    else if value.negative = false then do
      let output ← signed 64 value.magnitude
      pure (some output)
    else if value.magnitude = 2 ^ 63 then pure (some (-2 ^ 63))
    else do
      let output ← signed 64 value.magnitude
      let output ← signed 64 (-output)
      pure (some output)

/-- Whether a value is in none of the invalid ranges; `false` for a range that does not fit. -/
def outsideAll (raw : RawValue) : List RawRange → Checked Bool
  | [] => pure true
  | range :: ranges => do
    match ← inRange raw range with
    | some false => outsideAll raw ranges
    | _ => pure false

/-- The checks of a conversion and the difference it scales. The checks of its floating-point
constants are given. -/
def convertDelta (raw pivot : RawValue) (finiteConstants : Bool) (permittedRange : RawRange)
    (invalidRanges : List RawRange) : Checked (Option ExtendedValue) := do
  if ¬ validRaw raw then pure none
  else if ← sameRawShape raw pivot then
    if finiteConstants = false then pure none
    else
      match ← inRange raw permittedRange with
      | some true =>
        match ← inRange pivot permittedRange with
        | some true => if ← outsideAll raw invalidRanges then rawDelta raw pivot else pure none
        | _ => pure none
      | _ => pure none
  else pure none

end AccessoryController.ProfileRuntime
