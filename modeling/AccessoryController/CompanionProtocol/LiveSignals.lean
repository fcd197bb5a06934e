import Mathlib.Algebra.Group.Int.Defs
import AccessoryController.CompanionProtocol.LiveSignalLayout

/-!
# The legacy live frame

A sampling pass reads every signal of the table once and packs field and status of each into one
frame of fixed layout. A field whose value is missing, of another type or out of its range is left
zero; the status says whether a value is present.

## Main definitions

* `LiveFrame`, `LiveSignalContent`: the bytes of a frame, and all of them but the sequence number
* `writeValue`, `writeStatus`: the field and the status of a slot
* `LiveSignalSampler`, `sample`: one sampling pass
-/

namespace AccessoryController.CompanionProtocol.LiveSignals

open VehicleCore VehicleSignals

def kLiveSignalCount : ℕ := 21

def kLiveFrameBytes : ℕ := 28

def kLiveSignalLayoutVersion : UInt8 := 2

def kLayoutVersionOffset : ℕ := 0

def kSequenceOffset : ℕ := 1

def kFlagsOffset : ℕ := 2

def kBooleansOffset : ℕ := 11

def kStatusOffset : ℕ := 13

def kTelemetryStartedFlag : UInt8 := 0x01

def kValuePresentBit : UInt8 := 0x08

def kLargestUnsignedFieldValue : ℤ := 65535

def kSmallestSignedFieldValue : ℤ := -32768

def kLargestSignedFieldValue : ℤ := 32767

abbrev LiveFrame := Vector UInt8 kLiveFrameBytes

def writeU16 (bytes : LiveFrame) (offset : ℕ) (value : UInt16) : LiveFrame :=
  (bytes.setIfInBounds offset value.toUInt8).setIfInBounds (offset + 1) (value >>> 8).toUInt8

/-- A finite number times a scale, rounded to the nearest integer with halves away from zero. The
product is exact in double precision, so that it is rounded once. -/
def roundScaled (number : Binary32) (scale : ℕ) : ℤ :=
  let rounded : ℕ := (2 * (number.magnitude * scale) + 2 ^ 149) / 2 ^ 150
  if number.negative then -rounded else rounded

/-- The field of a number, and whether it was written. -/
def writeNumber (slot : LiveSignalSlot) (value : SignalValue) (bytes : LiveFrame) :
    LiveFrame × Bool :=
  match value.asNumber with
  | none => (bytes, false)
  | some number =>
    if ¬number.isFinite ∨ (¬slot.signedNumber ∧ number.units < 0) then (bytes, false)
    else
      let scaled := roundScaled number slot.scale
      if slot.signedNumber then
        if scaled < kSmallestSignedFieldValue ∨ kLargestSignedFieldValue < scaled then
          (bytes, false)
        else (writeU16 bytes slot.position (UInt16.ofInt scaled), true)
      else if kLargestUnsignedFieldValue < scaled then (bytes, false)
      else (writeU16 bytes slot.position (UInt16.ofInt scaled), true)

/-- The protocol code of a choice key. -/
def choiceCode (slot : LiveSignalSlot) (choiceKey : List UInt8) : Option UInt8 :=
  (slot.choices.find? fun choice => choice.key == choiceKey).map LiveChoiceCode.code

/-- The field of a choice: the protocol code of its catalogue key. -/
def writeChoice (slot : LiveSignalSlot) (signal : SignalMetadata) (value : SignalValue)
    (bytes : LiveFrame) : LiveFrame × Bool :=
  match value.asEnumeration with
  | none => (bytes, false)
  | some raw =>
    match signal.findValue raw with
    | none => (bytes, false)
    | some choice =>
      match choiceCode slot choice.key with
      | none => (bytes, false)
      | some code => (bytes.setIfInBounds slot.position code, true)

/-- The bit of a Boolean. -/
def writeBoolean (slot : LiveSignalSlot) (value : SignalValue) (booleans : UInt16) :
    UInt16 × Bool :=
  match value.asBoolean with
  | none => (booleans, false)
  | some flag =>
    (if flag then booleans ||| (1 <<< UInt16.ofNat slot.position) else booleans, true)

/-- What a pass has packed: the bytes, and the word of the Booleans, which is written last. -/
structure Packing where
  bytes : LiveFrame
  booleans : UInt16

def writeValue (slot : LiveSignalSlot) (signal : SignalMetadata) (value : SignalValue)
    (p : Packing) : Packing × Bool :=
  match slot.type with
  | .number =>
    let written := writeNumber slot value p.bytes
    ({ p with bytes := written.1 }, written.2)
  | .enum =>
    let written := writeChoice slot signal value p.bytes
    ({ p with bytes := written.1 }, written.2)
  | .boolean =>
    let written := writeBoolean slot value p.booleans
    ({ p with booleans := written.1 }, written.2)
  | .unknown _ => (p, false)

/-- The status nibble: the code, and whether a value is present. -/
def statusNibble (code : SignalStatusCode) (valuePresent : Bool) : UInt8 :=
  UInt8.ofNat code.value ||| if valuePresent then kValuePresentBit else 0

def writeStatus (bytes : LiveFrame) (index : ℕ) (code : SignalStatusCode) (valuePresent : Bool) :
    LiveFrame :=
  let offset := kStatusOffset + index / 2
  let shift : UInt8 := if index % 2 = 0 then 0 else 4
  bytes.setIfInBounds offset
    (bytes[offset]?.getD 0 ||| (statusNibble code valuePresent <<< shift))

/-- The availability's code; a slot whose freshness is unset is never reported as fresh. -/
def reportedCode (slot : LiveSignalSlot) (availability : Availability) : SignalStatusCode :=
  let code := statusCode availability
  if slot.freshnessUnset = true ∧ code = .fresh then .freshnessUnverified else code

/-- The catalogue entry of a slot: of its type, and readable. -/
def resolve (catalog : SignalCatalogView) (slot : LiveSignalSlot) : Option SignalMetadata :=
  match catalog.findKey slot.key with
  | none => none
  | some signal =>
    if signal.type ≠ slot.type ∨ signal.capabilities.has .read = false then none else some signal

/-- The content of a frame: every byte but the sequence number. -/
structure LiveSignalContent where
  bytes : LiveFrame := (Vector.replicate kLiveFrameBytes 0).setIfInBounds kLayoutVersionOffset
    kLiveSignalLayoutVersion
  deriving DecidableEq

def LiveSignalContent.frame (content : LiveSignalContent) (sequence : UInt8) : LiveFrame :=
  content.bytes.setIfInBounds kSequenceOffset sequence

/-- The sampler has the catalogue entries of its slots. -/
structure LiveSignalSampler where
  resolved : List (Option SignalMetadata)

def LiveSignalSampler.create (catalog : SignalCatalogView) : LiveSignalSampler :=
  ⟨liveSignalSlots.map (resolve catalog)⟩

/-- A slot of a pass: its index, its row of the table, and its catalogue entry. -/
structure SampledSlot where
  index : ℕ
  slot : LiveSignalSlot
  signal : Option SignalMetadata

def LiveSignalSampler.slots (sampler : LiveSignalSampler) : List SampledSlot :=
  (liveSignalSlots.zip sampler.resolved).zipIdx.map fun entry =>
    ⟨entry.2, entry.1.1, entry.1.2⟩

/-- The answers of the provider in one pass: to the read of each slot. -/
abbrev Answers := ℕ → SignalId → SignalResult SignalReading

/-- The body of the loop over the slots. -/
def sampleSlot (read : Answers) (p : Packing) (x : SampledSlot) : Packing :=
  match x.signal with
  | none => { p with bytes := writeStatus p.bytes x.index .notSupported false }
  | some signal =>
    let result := read x.index signal.id
    match result.success? with
    | none => { p with bytes := writeStatus p.bytes x.index (failureStatusCode result.status) false }
    | some reading =>
      let written := match reading.value with
        | none => (p, false)
        | some value => writeValue x.slot signal value p
      { written.1 with
        bytes := writeStatus written.1.bytes x.index (reportedCode x.slot reading.availability)
          written.2 }

/-- One sampling pass. -/
def LiveSignalSampler.sample (sampler : LiveSignalSampler) (read : Answers)
    (telemetryStarted : Bool) : LiveSignalContent :=
  let content : LiveSignalContent := {}
  let start : Packing :=
    { bytes := content.bytes.setIfInBounds kFlagsOffset
        (if telemetryStarted then kTelemetryStartedFlag else 0)
      booleans := 0 }
  let packed := sampler.slots.foldl (sampleSlot read) start
  ⟨writeU16 packed.bytes kBooleansOffset packed.booleans⟩

end AccessoryController.CompanionProtocol.LiveSignals
