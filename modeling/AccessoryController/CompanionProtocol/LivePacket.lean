import AccessoryController.CompanionProtocol.LiveSignalLayout

/-!
# Extensible live packets

A builder writes one packet of at most `min (mtu - 3) 244` bytes: a header, then one record for
each appended signal. A record is refused when it does not fit, when its handle was appended
before, or when the handle does not resolve to a readable signal of the provider.

## Main definitions

* `ExtensibleLiveSignalPacketBuilder.create`: a builder with the header of its packet
* `metadataForHandle`: the signal that a handle resolves to
* `appendReading`, `appendFailure`: the records of a reading and of a failed read
-/

namespace AccessoryController.CompanionProtocol

open LittleEndian VehicleCore VehicleSignals

def kExtensibleLiveSignalFormat : UInt8 := 1

def kExtensibleLiveSignalHeaderBytes : ℕ := 8

def kExtensibleLiveSignalRecordHeaderBytes : ℕ := 5

def kExtensibleLiveSignalMtuOverheadBytes : ℕ := 3

def kExtensibleLiveSignalMaxPacketBytes : ℕ := 244

def kTelemetryStartedFlag : UInt8 := 0x01

def kValuePresentBit : ℕ := 0x08

abbrev ExtensibleLiveSignalPacket := BoundedBytes kExtensibleLiveSignalMaxPacketBytes

/-- A builder; the mask of the appended handles is the list of its members. -/
structure ExtensibleLiveSignalPacketBuilder where
  packet : ExtensibleLiveSignalPacket := .empty
  appendedHandles : List ℕ := []
  packetLimit : ℕ := 0
  valid : Bool := false
  limited : packetLimit ≤ kExtensibleLiveSignalMaxPacketBytes := by decide

/-- Appends the parts in order up to the first one that does not fit. -/
def BoundedBytes.pushParts {capacity : ℕ} (value : BoundedBytes capacity) :
    List (List UInt8) → BoundedBytes capacity × Bool
  | [] => (value, true)
  | part :: parts =>
    match value.append part with
    | none => (value, false)
    | some value => value.pushParts parts

namespace ExtensibleLiveSignalPacketBuilder

/-- The bytes of a packet that an MTU allows. -/
def packetLimitOf (attMtu : ℕ) : ℕ :=
  let mtuLimit :=
    if kExtensibleLiveSignalMtuOverheadBytes < attMtu then
      attMtu - kExtensibleLiveSignalMtuOverheadBytes
    else 0
  if mtuLimit < kExtensibleLiveSignalMaxPacketBytes then mtuLimit
  else kExtensibleLiveSignalMaxPacketBytes

theorem packetLimitOf_le (attMtu : ℕ) :
    packetLimitOf attMtu ≤ kExtensibleLiveSignalMaxPacketBytes := by
  have capped : ∀ limit bound : ℕ, (if limit < bound then limit else bound) ≤ bound := by
    intro limit bound
    split <;> omega
  exact capped _ _

/-- A builder with the header of its packet; without a header it is not valid. -/
def create (catalog : SignalCatalogExport) (catalogToken : UInt32) (sequence : UInt16)
    (telemetryStarted : Bool) (attMtu : ℕ) : ExtensibleLiveSignalPacketBuilder :=
  let packetLimit := packetLimitOf attMtu
  let limited := packetLimitOf_le attMtu
  if !catalog.available ∨ catalogToken = 0 ∨ packetLimit < kExtensibleLiveSignalHeaderBytes then
    { packetLimit, limited }
  else
    match (BoundedBytes.empty : ExtensibleLiveSignalPacket).pushParts
      [[kExtensibleLiveSignalFormat], u16 sequence.toNat,
        [if telemetryStarted then kTelemetryStartedFlag else 0], u32 catalogToken.toNat] with
    | (_, false) => { packetLimit, limited }
    | (packet, true) => { packet, packetLimit, valid := true, limited }

/-- The readable signal of the provider that a handle resolves to. -/
def metadataForHandle (builder : ExtensibleLiveSignalPacketBuilder) (catalog : SignalCatalogExport)
    (provider : SignalCatalogView) (wireHandle : ℕ) : Option SignalMetadata :=
  if !builder.valid ∨ wireHandle = 0 ∨ catalog.signalCount < wireHandle then none
  else
    let providerId := catalog.providerIdForHandle wireHandle
    if ¬ providerId.valid then none
    else (provider.find providerId).filter fun metadata => metadata.capabilities.has .read

/-- The handle is out of range, or was appended before. -/
def refuses (builder : ExtensibleLiveSignalPacketBuilder) (wireHandle : ℕ) : Prop :=
  wireHandle = 0 ∨ 64 < wireHandle ∨ wireHandle ∈ builder.appendedHandles

instance (builder : ExtensibleLiveSignalPacketBuilder) (wireHandle : ℕ) :
    Decidable (builder.refuses wireHandle) := by
  unfold refuses
  infer_instance

/-- Appends a record of a type that the wire has a code for; the room for all of it is checked
first. -/
def appendStatus (builder : ExtensibleLiveSignalPacketBuilder) (wireHandle : ℕ)
    (metadata : SignalMetadata) (status : SignalStatusCode) (valueBytes : List UInt8) :
    ExtensibleLiveSignalPacketBuilder × Bool :=
  match wireTypeCode metadata.type with
  | none => (builder, false)
  | some typeCode =>
    if 4 < valueBytes.length then (builder, false)
    else
      let recordLength := 4 + valueBytes.length
      let recordBytes := 1 + recordLength
      if !builder.valid ∨ 255 < recordLength ∨ builder.refuses wireHandle ∨
          builder.packetLimit < builder.packet.bytes.length ∨
          builder.packetLimit - builder.packet.bytes.length < recordBytes then (builder, false)
      else
        let statusByte :=
          UInt8.ofNat (status.value % 8 + if valueBytes.length ≠ 0 then kValuePresentBit else 0)
        match builder.packet.pushParts
          ([[UInt8.ofNat recordLength], u16 wireHandle, [typeCode], [statusByte]] ++
            valueBytes.map fun byte => [byte]) with
        | (packet, false) => ({ builder with packet }, false)
        | (packet, true) =>
          ({ builder with packet, appendedHandles := wireHandle :: builder.appendedHandles }, true)

/-- The value bytes of a reading: none without a value of the signal's type, for a number that
is not finite, and for an enumeration value that is not a choice. -/
def encodedValue (catalog : SignalCatalogExport) (wireHandle : ℕ) (metadata : SignalMetadata)
    (reading : SignalReading) : List UInt8 :=
  match reading.value with
  | none => []
  | some value =>
    if value.type ≠ metadata.type then []
    else
      match value with
      | .boolean boolean => [if boolean then 1 else 0]
      | .number number => if number.isFinite then u32 number.bits.toNat else []
      | .enumeration raw =>
        match catalog.wireChoiceHandle wireHandle raw with
        | none => []
        | some choice => if choice ≠ 0 then u16 choice else []

def appendReading (builder : ExtensibleLiveSignalPacketBuilder) (catalog : SignalCatalogExport)
    (provider : SignalCatalogView) (wireHandle : ℕ) (reading : SignalReading) :
    ExtensibleLiveSignalPacketBuilder × Bool :=
  if builder.refuses wireHandle then (builder, false)
  else
    match builder.metadataForHandle catalog provider wireHandle with
    | none => (builder, false)
    | some metadata =>
      builder.appendStatus wireHandle metadata (reportedStatus metadata reading.availability)
        (encodedValue catalog wireHandle metadata reading)

def appendFailure (builder : ExtensibleLiveSignalPacketBuilder) (catalog : SignalCatalogExport)
    (provider : SignalCatalogView) (wireHandle : ℕ) (failure : SignalStatus) :
    ExtensibleLiveSignalPacketBuilder × Bool :=
  if builder.refuses wireHandle then (builder, false)
  else
    match builder.metadataForHandle catalog provider wireHandle with
    | none => (builder, false)
    | some metadata => builder.appendStatus wireHandle metadata (failureStatusCode failure) []

/-- The record of a read, whether it succeeded or failed. -/
def appendResult (builder : ExtensibleLiveSignalPacketBuilder) (catalog : SignalCatalogExport)
    (provider : SignalCatalogView) (wireHandle : ℕ) (result : SignalResult SignalReading) :
    ExtensibleLiveSignalPacketBuilder × Bool :=
  match result.success? with
  | some reading => builder.appendReading catalog provider wireHandle reading
  | none => builder.appendFailure catalog provider wireHandle result.status

end ExtensibleLiveSignalPacketBuilder

end AccessoryController.CompanionProtocol
