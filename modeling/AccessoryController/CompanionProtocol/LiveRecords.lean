import AccessoryController.CompanionProtocol.LiveStream
import AccessoryController.Library.Wire

/-!
# The records of a live packet

A packet is a header followed by length-delimited records of distinct handles. What a builder
appends for a handle depends on the handle and on the result of its read only; the builder
decides whether it is appended at all.

## Main definitions

* `LiveRecord`, `LiveHeader`, `decodePacket`: the packets by the wire grammar
* `recordOf`: the record that a read of a handle gives
* `Writes`: a builder holds a header and records

## Main results

* `appendResult_spec`: an append writes the record, or changes nothing
* `decodePacket_bytes`: the grammar reads the records that were written
-/

namespace AccessoryController.CompanionProtocol

open ExtensibleLiveSignalPacketBuilder (encodedValue)
open LittleEndian VehicleSignals Wire

/-! ### The wire grammar -/

/-- A record of a packet. The status byte holds the status code and the value-present bit. -/
structure LiveRecord where
  handle : ℕ
  typeCode : UInt8
  status : UInt8
  value : List UInt8
  deriving DecidableEq, Repr

/-- The bytes of a record. -/
def LiveRecord.bytes (record : LiveRecord) : List UInt8 :=
  UInt8.ofNat (4 + record.value.length) ::
    (u16 record.handle ++ record.typeCode :: record.status :: record.value)

/-- The bytes of a record after its length. -/
def decodeRecord : List UInt8 → Option LiveRecord
  | low :: high :: typeCode :: status :: value =>
    some ⟨low.toNat + 2 ^ 8 * high.toNat, typeCode, status, value⟩
  | _ => none

def readRecord : Reader LiveRecord := do
  let length ← byte
  let body ← take length.toNat
  StateT.lift (decodeRecord body)

/-- The header of a packet. -/
structure LiveHeader where
  sequence : UInt16
  flags : UInt8
  token : UInt32
  deriving DecidableEq, Repr

def LiveHeader.bytes (header : LiveHeader) : List UInt8 :=
  kExtensibleLiveSignalFormat ::
    (u16 header.sequence.toNat ++ header.flags :: u32 header.token.toNat)

def readHeader : Reader (UInt8 × LiveHeader) := do
  let format ← byte
  let sequence ← word
  let flags ← byte
  let token ← dword
  pure (format, ⟨UInt16.ofNat sequence, flags, UInt32.ofNat token⟩)

/-- **The reader of a packet.** Records fill the packet after its header, and their handles are
distinct. -/
def decodePacket (bytes : List UInt8) : Option (LiveHeader × List LiveRecord) :=
  match readHeader bytes with
  | none => none
  | some ((format, header), rest) =>
    if format ≠ kExtensibleLiveSignalFormat then none
    else
      ((Wire.all readRecord rest).filter fun records =>
        (records.map LiveRecord.handle).Nodup).map fun records => (header, records)

/-- A record that the writer can have written. -/
structure LiveRecord.Written (record : LiveRecord) (signalCount : ℕ) : Prop where
  positive : record.handle ≠ 0
  known : record.handle ≤ signalCount
  word : record.handle < 2 ^ 16
  short : record.value.length ≤ 4

theorem LiveRecord.length_bytes (record : LiveRecord) :
    record.bytes.length = kExtensibleLiveSignalRecordHeaderBytes + record.value.length := by
  simp only [LiveRecord.bytes, List.length_cons, List.length_append, length_u16,
    kExtensibleLiveSignalRecordHeaderBytes]
  omega

variable {record : LiveRecord} {signalCount : ℕ} {records : List LiveRecord} {handle : ℕ}
  {metadata : SignalMetadata} {builder : ExtensibleLiveSignalPacketBuilder}

theorem LiveRecord.Written.length_le (written : record.Written signalCount) :
    record.bytes.length ≤ kMaxRecordBytes := by
  rw [LiveRecord.length_bytes]
  exact Nat.add_le_add_left written.short _

theorem reads_readRecord (written : record.Written signalCount) :
    Reads readRecord record.bytes record := by
  obtain ⟨-, -, hword, hshort⟩ := written
  have hlength : (UInt8.ofNat (4 + record.value.length)).toNat =
      (u16 record.handle ++ record.typeCode :: record.status :: record.value).length := by
    rw [UInt8.toNat_ofNat', List.length_append, length_u16, List.length_cons, List.length_cons]
    omega
  have hhandle : (UInt8.ofNat record.handle).toNat +
      2 ^ 8 * (UInt8.ofNat (record.handle / 2 ^ 8)).toNat = record.handle := by
    rw [UInt8.toNat_ofNat', UInt8.toNat_ofNat']
    omega
  have hdecode : decodeRecord (u16 record.handle ++
      record.typeCode :: record.status :: record.value) = some record := by
    show some (LiveRecord.mk _ _ _ _) = some record
    rw [hhandle]
  have hbody := reads_take (u16 record.handle ++ record.typeCode :: record.status :: record.value)
  rw [← hlength] at hbody
  have hread : Reads readRecord ([UInt8.ofNat (4 + record.value.length)] ++
      ((u16 record.handle ++ record.typeCode :: record.status :: record.value) ++ [])) record :=
    (reads_byte _).bind (hbody.bind (reads_lift hdecode))
  rwa [List.append_nil, List.singleton_append] at hread

theorem reads_readHeader (header : LiveHeader) :
    Reads readHeader header.bytes (kExtensibleLiveSignalFormat, header) := by
  have reads : Reads readHeader header.bytes (kExtensibleLiveSignalFormat,
      ⟨UInt16.ofNat header.sequence.toNat, header.flags, UInt32.ofNat header.token.toNat⟩) :=
    (reads_byte _).bind ((reads_word header.sequence.toNat_lt).bind ((reads_byte _).bind
      (reads_dword header.token.toNat_lt).map))
  rwa [UInt16.ofNat_toNat, UInt32.ofNat_toNat] at reads

/-- **The grammar** reads the header and the records of a packet. -/
theorem decodePacket_bytes (header : LiveHeader)
    (written : ∀ record ∈ records, record.Written signalCount)
    (distinct : (records.map LiveRecord.handle).Nodup) :
    decodePacket (header.bytes ++ records.flatMap LiveRecord.bytes) = some (header, records) := by
  have hrecords : Wire.all readRecord (records.flatMap LiveRecord.bytes) = some records := by
    have reads : ∀ record ∈ records,
        Reads readRecord record.bytes (id record) ∧ record.bytes ≠ [] := fun record hrecord =>
      ⟨reads_readRecord (written record hrecord), List.cons_ne_nil _ _⟩
    rw [all_of_reads records reads, List.map_id]
  rw [decodePacket, reads_readHeader header]
  dsimp only
  rw [if_neg (not_not.mpr rfl), hrecords, Option.filter_some, if_pos (decide_eq_true distinct)]
  rfl

/-! ### What a builder appends -/

/-- The readable signal of the provider behind a handle. -/
def readableSignal (catalog : SignalCatalogExport) (provider : SignalCatalogView) (handle : ℕ) :
    Option SignalMetadata :=
  if handle = 0 ∨ catalog.signalCount < handle then none
  else
    let providerId := catalog.providerIdForHandle handle
    if ¬ providerId.valid then none
    else (provider.find providerId).filter fun metadata => metadata.capabilities.has .read

/-- The record of a signal with a type code, a status and a value. -/
def statusRecord (handle : ℕ) (typeCode : UInt8) (status : SignalStatusCode)
    (value : List UInt8) : LiveRecord where
  handle := handle
  typeCode := typeCode
  status := UInt8.ofNat (status.value % 8 + if value.length ≠ 0 then kValuePresentBit else 0)
  value := value

/-- The record that a read of a handle gives; there is none for a type without a code. -/
def recordOf (catalog : SignalCatalogExport) (provider : SignalCatalogView) (handle : ℕ)
    (result : SignalResult SignalReading) : Option LiveRecord :=
  (readableSignal catalog provider handle).bind fun metadata =>
    (wireTypeCode metadata.type).map fun typeCode =>
      match result.success? with
      | some reading =>
        statusRecord handle typeCode (reportedStatus metadata reading.availability)
          (encodedValue catalog handle metadata reading)
      | none => statusRecord handle typeCode (failureStatusCode result.status) []

theorem length_encodedValue_le (catalog : SignalCatalogExport) (handle : ℕ)
    (metadata : SignalMetadata) (reading : SignalReading) :
    (encodedValue catalog handle metadata reading).length ≤ 4 := by
  unfold encodedValue
  split
  · exact Nat.zero_le _
  split
  · exact Nat.zero_le _
  split
  · exact Nat.le_of_ble_eq_true rfl
  · split
    · exact Nat.le_refl _
    · exact Nat.zero_le _
  · split
    · exact Nat.zero_le _
    · split
      · exact Nat.le_of_ble_eq_true rfl
      · exact Nat.zero_le _

variable {catalog : SignalCatalogExport} {provider : SignalCatalogView}

theorem readableSignal_known (h : readableSignal catalog provider handle = some metadata) :
    handle ≠ 0 ∧ handle ≤ catalog.signalCount := by
  unfold readableSignal at h
  split at h
  · cases h
  · rename_i known
    rw [not_or, Nat.not_lt] at known
    exact known

/-- The record of a handle bears the handle, and is within the bounds of the wire. -/
theorem recordOf_written {result : SignalResult SignalReading}
    (few : catalog.signalCount ≤ kMaxSignalCatalogSignals)
    (h : recordOf catalog provider handle result = some record) :
    record.handle = handle ∧ record.Written catalog.signalCount := by
  obtain ⟨metadata, hmetadata, hcoded⟩ := Option.bind_eq_some_iff.mp h
  obtain ⟨typeCode, -, hrecord⟩ := Option.map_eq_some_iff.mp hcoded
  obtain ⟨hpositive, hknown⟩ := readableSignal_known hmetadata
  have hword : handle < 2 ^ 16 :=
    Nat.lt_of_le_of_lt (Nat.le_trans hknown few) (by decide)
  cases hresult : result.success? with
  | none =>
    rw [hresult] at hrecord
    subst hrecord
    exact ⟨rfl, hpositive, hknown, hword, Nat.zero_le _⟩
  | some reading =>
    rw [hresult] at hrecord
    subst hrecord
    exact ⟨rfl, hpositive, hknown, hword, length_encodedValue_le _ _ _ _⟩

theorem BoundedBytes.pushParts_eq {capacity : ℕ} {value : BoundedBytes capacity}
    {parts : List (List UInt8)} (fits : value.bytes.length + parts.flatten.length ≤ capacity) :
    ∃ value', value.pushParts parts = (value', true) ∧
      value'.bytes = value.bytes ++ parts.flatten := by
  induction parts generalizing value with
  | nil => exact ⟨value, rfl, (List.append_nil _).symm⟩
  | cons part parts ih =>
    rw [List.flatten_cons, List.length_append] at fits
    have room : value.bytes.length + part.length ≤ capacity := by omega
    obtain ⟨next, happend, hbytes⟩ := BoundedBytes.append_eq_some room
    have rest : next.bytes.length + parts.flatten.length ≤ capacity := by
      rw [hbytes, List.length_append]
      omega
    obtain ⟨value', hpush, hbytes'⟩ := ih rest
    refine ⟨value', ?_, ?_⟩
    · rw [pushParts, happend]
      exact hpush
    · rw [hbytes', hbytes, List.flatten_cons, List.append_assoc]

namespace ExtensibleLiveSignalPacketBuilder

/-- A builder has written a header and records of distinct handles. -/
structure Writes (builder : ExtensibleLiveSignalPacketBuilder) (header : LiveHeader)
    (records : List LiveRecord) : Prop where
  valid : builder.valid = true
  bytes : builder.packet.bytes = header.bytes ++ records.flatMap LiveRecord.bytes
  handles : ∀ handle, handle ∈ builder.appendedHandles ↔ handle ∈ records.map LiveRecord.handle
  distinct : (records.map LiveRecord.handle).Nodup

/-- A builder that was made with a token has written the header. -/
theorem writes_create {catalogToken : UInt32} {sequence : UInt16} {telemetryStarted : Bool}
    {attMtu : ℕ}
    (available : catalog.available = true) (token : catalogToken ≠ 0)
    (room : kExtensibleLiveSignalHeaderBytes ≤ packetLimitOf attMtu) :
    (create catalog catalogToken sequence telemetryStarted attMtu).Writes
        ⟨sequence, if telemetryStarted then kTelemetryStartedFlag else 0, catalogToken⟩ [] ∧
      (create catalog catalogToken sequence telemetryStarted attMtu).packetLimit =
        packetLimitOf attMtu := by
  have fits : (BoundedBytes.empty : ExtensibleLiveSignalPacket).bytes.length +
      [[kExtensibleLiveSignalFormat], u16 sequence.toNat,
        [if telemetryStarted then kTelemetryStartedFlag else 0],
        u32 catalogToken.toNat].flatten.length ≤ kExtensibleLiveSignalMaxPacketBytes :=
    Nat.le_of_ble_eq_true rfl
  obtain ⟨packet, hpush, hbytes⟩ := BoundedBytes.pushParts_eq fits
  have hopen : ¬ (!catalog.available ∨ catalogToken = 0 ∨
      packetLimitOf attMtu < kExtensibleLiveSignalHeaderBytes) := by
    simp [available, token, Nat.not_lt.mpr room]
  unfold create
  rw [if_neg hopen, hpush]
  exact ⟨⟨rfl, hbytes, fun handle => Iff.rfl, List.nodup_nil⟩, rfl⟩

theorem metadataForHandle_of_valid (valid : builder.valid = true) :
    builder.metadataForHandle catalog provider handle =
      readableSignal catalog provider handle := by
  unfold metadataForHandle readableSignal
  simp only [valid, Bool.not_true, Bool.false_eq_true, false_or]

/-- A signal whose type has no code has no record. -/
theorem appendStatus_uncoded (builder : ExtensibleLiveSignalPacketBuilder) (handle : ℕ)
    (status : SignalStatusCode) (value : List UInt8) (uncoded : wireTypeCode metadata.type = none) :
    builder.appendStatus handle metadata status value = (builder, false) := by
  rw [appendStatus, uncoded]

/-- A record with room for it is written. -/
theorem appendStatus_spec {header : LiveHeader} (writes : builder.Writes header records)
    {status : SignalStatusCode} {value : List UInt8} {typeCode : UInt8}
    (coded : wireTypeCode metadata.type = some typeCode) (accepts : ¬ builder.refuses handle)
    (short : value.length ≤ 4) : let record := statusRecord handle typeCode status value
    (∃ builder', builder.appendStatus handle metadata status value = (builder', true) ∧
        builder'.Writes header (records ++ [record]) ∧
        builder'.packetLimit = builder.packetLimit) ∨
      (builder.appendStatus handle metadata status value = (builder, false) ∧
        builder.packetLimit < builder.packet.bytes.length + record.bytes.length) := by
  intro record
  have hsize : record.bytes.length = 1 + (4 + value.length) := by
    rw [LiveRecord.length_bytes, ← Nat.add_assoc]
    rfl
  unfold appendStatus
  rw [coded]
  dsimp only
  rw [if_neg (Nat.not_lt.mpr short)]
  by_cases room : builder.packet.bytes.length + record.bytes.length ≤ builder.packetLimit
  · left
    have hopen : ¬ (!builder.valid ∨ 255 < 4 + value.length ∨ builder.refuses handle ∨
        builder.packetLimit < builder.packet.bytes.length ∨
        builder.packetLimit - builder.packet.bytes.length < 1 + (4 + value.length)) := by
      simp only [writes.valid, accepts, Bool.not_true, Bool.false_eq_true, false_or]
      omega
    have hflatten : ([[UInt8.ofNat (4 + value.length)], u16 handle, [typeCode],
        [record.status]] ++ value.map fun byte => [byte]).flatten = record.bytes := by
      have hvalue : (value.map fun byte => [byte]).flatten = value := by
        rw [← List.flatMap_def]
        exact List.flatMap_singleton' value
      rw [List.flatten_append, hvalue]
      rfl
    have fits : builder.packet.bytes.length + ([[UInt8.ofNat (4 + value.length)], u16 handle,
        [typeCode], [record.status]] ++ value.map fun byte => [byte]).flatten.length
          ≤ kExtensibleLiveSignalMaxPacketBytes := by
      rw [hflatten]
      exact Nat.le_trans room builder.limited
    obtain ⟨packet, hpush, hbytes⟩ := BoundedBytes.pushParts_eq fits
    have hnew : handle ∉ records.map LiveRecord.handle := by
      intro hmem
      exact accepts (Or.inr (Or.inr ((writes.handles handle).mpr hmem)))
    rw [if_neg hopen]
    refine ⟨{ builder with packet, appendedHandles := handle :: builder.appendedHandles },
      ?_, ⟨writes.valid, ?_, ?_, ?_⟩, rfl⟩
    · erw [hpush]
    · show packet.bytes = _
      rw [hbytes, hflatten, writes.bytes, List.flatMap_append, List.append_assoc,
        List.flatMap_singleton]
    · intro h
      show h ∈ handle :: builder.appendedHandles ↔ _
      rw [List.mem_cons, writes.handles, List.map_append, List.mem_append, or_comm]
      exact or_congr_right List.mem_singleton.symm
    · rw [List.map_append, List.nodup_append]
      refine ⟨writes.distinct, List.pairwise_singleton _ _, ?_⟩
      rintro h hh h' hh' rfl
      rw [List.mem_singleton.mp hh'] at hh
      exact hnew hh
  · right
    refine ⟨if_pos ?_, Nat.lt_of_not_le room⟩
    right; right; right
    omega

/-- **What an append does**: it writes the record of the handle, or changes nothing. -/
theorem appendResult_spec {header : LiveHeader} (writes : builder.Writes header records)
    (handle : ℕ) (result : SignalResult SignalReading) :
    (∃ record builder', recordOf catalog provider handle result = some record ∧
        builder.appendResult catalog provider handle result = (builder', true) ∧
        builder'.Writes header (records ++ [record]) ∧
        builder'.packetLimit = builder.packetLimit) ∨
      (builder.appendResult catalog provider handle result = (builder, false) ∧
        (builder.refuses handle ∨ recordOf catalog provider handle result = none ∨
          ∃ record, recordOf catalog provider handle result = some record ∧
            builder.packetLimit < builder.packet.bytes.length + record.bytes.length)) := by
  by_cases refused : builder.refuses handle
  · refine Or.inr ⟨?_, Or.inl refused⟩
    unfold appendResult appendReading appendFailure
    split <;> rw [if_pos refused]
  cases hmetadata : readableSignal catalog provider handle with
  | none =>
    refine Or.inr ⟨?_, Or.inr (Or.inl (by rw [recordOf, hmetadata]; rfl))⟩
    unfold appendResult appendReading appendFailure
    rw [metadataForHandle_of_valid writes.valid, hmetadata]
    split <;> rw [if_neg refused]
  | some metadata =>
    -- a reading and a failed read differ in their status and value only
    obtain ⟨status, value, short, hrecord, happend⟩ : ∃ status value, List.length value ≤ 4 ∧
        recordOf catalog provider handle result =
          (wireTypeCode metadata.type).map (fun typeCode =>
            statusRecord handle typeCode status value) ∧
        builder.appendResult catalog provider handle result =
          builder.appendStatus handle metadata status value := by
      unfold recordOf appendResult
      cases result.success? with
      | none =>
        refine ⟨failureStatusCode result.status, [], Nat.zero_le _, by rw [hmetadata]; rfl, ?_⟩
        rw [appendFailure, if_neg refused, metadataForHandle_of_valid writes.valid, hmetadata]
      | some reading =>
        refine ⟨reportedStatus metadata reading.availability,
          encodedValue catalog handle metadata reading, length_encodedValue_le _ _ _ _,
          by rw [hmetadata]; rfl, ?_⟩
        dsimp only
        rw [appendReading, if_neg refused, metadataForHandle_of_valid writes.valid, hmetadata]
    rw [happend]
    cases hcoded : wireTypeCode metadata.type with
    | none =>
      rw [hcoded] at hrecord
      exact Or.inr ⟨appendStatus_uncoded builder handle status value hcoded, Or.inr (Or.inl hrecord)⟩
    | some typeCode =>
      rw [hcoded] at hrecord
      rcases appendStatus_spec writes hcoded refused short with
        ⟨builder', hwrite, hwrites, hlimit⟩ | ⟨hfull, hlong⟩
      · exact Or.inl ⟨_, builder', hrecord, hwrite, hwrites, hlimit⟩
      · exact Or.inr ⟨hfull, Or.inr (Or.inr ⟨_, hrecord, hlong⟩)⟩

end ExtensibleLiveSignalPacketBuilder

end AccessoryController.CompanionProtocol
