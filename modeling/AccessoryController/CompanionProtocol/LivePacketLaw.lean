import AccessoryController.CompanionProtocol.LiveRecords

/-!
# A packet under any sequence of appends

The appends of readings, of failures and of bare statuses reach one builder in any order, and any
of them may be refused. What the builder has written is the header and the records of the appends
that it accepted.

## Main definitions

* `PacketCall`: the appends that reach a builder, each with the record that it asks for
* `acceptedRecords`: the records of the appends that a run accepted
* `Encodable`: a value that the wire can carry for a signal

## Main results

* `call_spec`: one append writes its record, or changes nothing
* `present_iff_encodable`: the record of a reading has a value exactly for an encodable one
* `live_packet_codec`: the law of every sequence of appends
-/

namespace AccessoryController.CompanionProtocol

open ExtensibleLiveSignalPacketBuilder LittleEndian VehicleCore VehicleSignals

/-- An append that reaches a builder. -/
inductive PacketCall
  | reading (handle : ℕ) (reading : SignalReading)
  | failure (handle : ℕ) (failure : SignalStatus)
  | status (handle : ℕ) (metadata : SignalMetadata) (status : SignalStatusCode)
      (value : List UInt8)

/-- The record that an append asks for; an unknown handle and a type without a code have none. -/
def PacketCall.record (catalog : SignalCatalogExport) (provider : SignalCatalogView) :
    PacketCall → Option LiveRecord
  | .reading handle sample => recordOf catalog provider handle ⟨.ok, some sample⟩
  | .failure handle cause => recordOf catalog provider handle ⟨cause, none⟩
  | .status handle metadata code value =>
    (wireTypeCode metadata.type).map fun typeCode => statusRecord handle typeCode code value

/-- One append. -/
def ExtensibleLiveSignalPacketBuilder.call (catalog : SignalCatalogExport)
    (provider : SignalCatalogView) (builder : ExtensibleLiveSignalPacketBuilder) :
    PacketCall → ExtensibleLiveSignalPacketBuilder × Bool
  | .reading handle reading => builder.appendReading catalog provider handle reading
  | .failure handle failure => builder.appendFailure catalog provider handle failure
  | .status handle metadata status value => builder.appendStatus handle metadata status value

/-- The records of the accepted appends of a run, in order. -/
def acceptedRecords (catalog : SignalCatalogExport) (provider : SignalCatalogView)
    (trace : List (PacketCall × Bool)) : List LiveRecord :=
  trace.filterMap fun entry => if entry.2 then entry.1.record catalog provider else none

/-- The wire can carry the value for the signal: it has the signal's type, and is a finite number
or a choice of the catalogue entry where it is a number or an enumeration value. -/
def Encodable (catalog : SignalCatalogExport) (handle : ℕ) (metadata : SignalMetadata)
    (value : SignalValue) : Prop :=
  value.type = metadata.type ∧
    match value with
    | .boolean _ => True
    | .number number => number.isFinite = true
    | .enumeration raw => ∃ entry, catalog.metadataForHandle handle = some entry ∧
        entry.type = .enum ∧ ∃ choice ∈ entry.choices, choice.value = raw

variable {catalog : SignalCatalogExport} {provider : SignalCatalogView}

/-! ### The records of readings -/

/-- A choice of the entry has a wire handle, which is not zero. -/
theorem wireChoiceHandle_iff (handle raw : ℕ) :
    (∃ choice, catalog.wireChoiceHandle handle raw = some choice ∧ choice ≠ 0) ↔
      ∃ entry, catalog.metadataForHandle handle = some entry ∧ entry.type = .enum ∧
        ∃ choice ∈ entry.choices, choice.value = raw := by
  unfold SignalCatalogExport.wireChoiceHandle
  cases hentry : catalog.metadataForHandle handle with
  | none => simp
  | some entry =>
    by_cases htype : entry.type = .enum
    · simp only [htype, ne_eq, not_true_eq_false, if_false, Option.map_eq_some_iff,
        Option.some.injEq, exists_eq_left', true_and]
      constructor
      · rintro ⟨_, ⟨index, hindex, rfl⟩, -⟩
        obtain ⟨hlt, hvalue, -⟩ := List.findIdx?_eq_some_iff_getElem.mp hindex
        exact ⟨entry.choices[index], List.getElem_mem hlt, by simpa using hvalue⟩
      · rintro ⟨choice, hmem, hvalue⟩
        have found : (entry.choices.findIdx? fun choice => choice.value == raw).isSome = true := by
          rw [List.findIdx?_isSome, List.any_eq_true]
          exact ⟨choice, hmem, by simp [hvalue]⟩
        obtain ⟨index, hindex⟩ := Option.isSome_iff_exists.mp found
        exact ⟨index + 1, ⟨index, hindex, rfl⟩, Nat.succ_ne_zero index⟩
    · simp [htype]

/-- **A reading has value bytes** exactly if its value can be encoded. -/
theorem present_iff_encodable (handle : ℕ) (metadata : SignalMetadata) (reading : SignalReading) :
    encodedValue catalog handle metadata reading ≠ [] ↔
      ∃ value, reading.value = some value ∧ Encodable catalog handle metadata value := by
  unfold encodedValue
  cases hvalue : reading.value with
  | none => simp
  | some value =>
    simp only [Option.some.injEq, exists_eq_left', Encodable]
    by_cases htype : value.type = metadata.type
    · rw [if_neg (not_not.mpr htype)]
      cases value with
      | boolean boolean => simp [htype]
      | number number =>
        cases hfinite : number.isFinite <;> simp [htype, u32, u16]
      | enumeration raw =>
        show _ ≠ [] ↔ _ ∧ ∃ entry, catalog.metadataForHandle handle = some entry ∧
          entry.type = .enum ∧ ∃ choice ∈ entry.choices, choice.value = raw
        rw [← wireChoiceHandle_iff]
        cases hchoice : catalog.wireChoiceHandle handle raw with
        | none => simp [hchoice]
        | some choice =>
          by_cases hzero : choice = 0 <;> simp [hchoice, htype, hzero, u16]
    · simp [htype]

/-- A signal without a freshness policy is never reported as fresh. -/
theorem reportedStatus_demoted {metadata : SignalMetadata}
    (demoted : freshnessIsUnset metadata = true) (availability : Availability) :
    reportedStatus metadata availability ≠ .fresh := by
  unfold reportedStatus
  dsimp only
  split
  · exact SignalStatusCode.noConfusion
  · rename_i kept
    exact fun fresh => kept ⟨demoted, fresh⟩

/-- The status byte holds the status code in its low bits, and tells whether a value is present. -/
theorem statusRecord_status (handle : ℕ) (typeCode : UInt8) (status : SignalStatusCode)
    (value : List UInt8) :
    (statusRecord handle typeCode status value).status.toNat =
      status.value + if value = [] then 0 else kValuePresentBit := by
  have small : status.value < 8 := by cases status <;> decide
  cases value with
  | nil => simp [statusRecord, Nat.mod_eq_of_lt small]; omega
  | cons byte value => simp [statusRecord, Nat.mod_eq_of_lt small, kValuePresentBit]; omega

theorem recordOf_reading {handle : ℕ} {reading : SignalReading} {record : LiveRecord}
    (h : recordOf catalog provider handle ⟨.ok, some reading⟩ = some record) :
    ∃ metadata typeCode, readableSignal catalog provider handle = some metadata ∧
      wireTypeCode metadata.type = some typeCode ∧
      record = statusRecord handle typeCode (reportedStatus metadata reading.availability)
        (encodedValue catalog handle metadata reading) := by
  obtain ⟨metadata, hmetadata, hcoded⟩ := Option.bind_eq_some_iff.mp h
  obtain ⟨typeCode, hcode, hrecord⟩ := Option.map_eq_some_iff.mp hcoded
  exact ⟨metadata, typeCode, hmetadata, hcode, hrecord.symm⟩

theorem recordOf_failure {handle : ℕ} {failure : SignalStatus} :
    recordOf catalog provider handle ⟨failure, none⟩ =
      (readableSignal catalog provider handle).bind fun metadata =>
        (wireTypeCode metadata.type).map fun typeCode =>
          statusRecord handle typeCode (failureStatusCode failure) [] := by
  have failed : (⟨failure, none⟩ : SignalResult SignalReading).success? = none := by
    simp [SignalResult.success?]
  rw [recordOf, failed]

/-! ### One append -/

variable {builder : ExtensibleLiveSignalPacketBuilder}

namespace ExtensibleLiveSignalPacketBuilder

/-- An accepted record had room. -/
theorem appendStatus_room {handle : ℕ} {metadata : SignalMetadata} {status : SignalStatusCode}
    {value : List UInt8} (accepted : (builder.appendStatus handle metadata status value).2 = true) :
    (∃ typeCode, wireTypeCode metadata.type = some typeCode) ∧ builder.valid = true ∧
      ¬ builder.refuses handle ∧ value.length ≤ 4 ∧
      builder.packet.bytes.length + (5 + value.length) ≤ builder.packetLimit := by
  unfold appendStatus at accepted
  split at accepted
  · cases accepted
  rename_i typeCode coded
  split at accepted
  · cases accepted
  rename_i short
  dsimp only at accepted
  split at accepted
  · cases accepted
  rename_i room
  simp only [not_or, Bool.not_eq_true', Bool.not_eq_false] at room
  obtain ⟨valid, -, accepts, -, fits⟩ := room
  exact ⟨⟨typeCode, coded⟩, valid, accepts, by omega, by omega⟩

/-- An append is refused, or it is the append of the status and the value of its record. -/
theorem call_cases (catalog : SignalCatalogExport) (provider : SignalCatalogView)
    (builder : ExtensibleLiveSignalPacketBuilder) (call : PacketCall) :
    builder.call catalog provider call = (builder, false) ∨
      ∃ handle metadata status value,
        call.record catalog provider = (wireTypeCode metadata.type).map (fun typeCode =>
          statusRecord handle typeCode status value) ∧
        builder.call catalog provider call = builder.appendStatus handle metadata status value := by
  cases hvalid : builder.valid with
  | false =>
    left
    have unknown : ∀ handle, builder.metadataForHandle catalog provider handle = none := by
      intro handle
      simp [metadataForHandle, hvalid]
    cases call with
    | reading handle reading => simp [call, appendReading, unknown]
    | failure handle failure => simp [call, appendFailure, unknown]
    | status handle metadata status value =>
      cases hcoded : wireTypeCode metadata.type <;> simp [call, appendStatus, hcoded, hvalid]
  | true =>
    cases call with
    | status handle metadata status value =>
      exact Or.inr ⟨handle, metadata, status, value, rfl, rfl⟩
    | reading handle reading =>
      by_cases refused : builder.refuses handle
      · exact Or.inl (if_pos refused)
      cases hmetadata : readableSignal catalog provider handle with
      | none =>
        left
        simp only [call, appendReading, if_neg refused, metadataForHandle_of_valid hvalid,
          hmetadata]
      | some metadata =>
        refine Or.inr ⟨handle, metadata, _, _,
          by rw [PacketCall.record, recordOf, hmetadata]; rfl, ?_⟩
        simp only [call, appendReading, if_neg refused, metadataForHandle_of_valid hvalid,
          hmetadata]
    | failure handle failure =>
      by_cases refused : builder.refuses handle
      · exact Or.inl (if_pos refused)
      cases hmetadata : readableSignal catalog provider handle with
      | none =>
        left
        simp only [call, appendFailure, if_neg refused, metadataForHandle_of_valid hvalid,
          hmetadata]
      | some metadata =>
        refine Or.inr ⟨handle, metadata, failureStatusCode failure, [],
          by rw [PacketCall.record, recordOf_failure, hmetadata]; rfl, ?_⟩
        simp only [call, appendFailure, if_neg refused, metadataForHandle_of_valid hvalid,
          hmetadata]

/-- A builder that has written the records, each of which the grammar can read, within its limit. -/
structure Holds (builder : ExtensibleLiveSignalPacketBuilder) (header : LiveHeader)
    (records : List LiveRecord) : Prop where
  writes : builder.Writes header records
  written : ∀ record ∈ records, record.Written 64
  within : builder.packet.bytes.length ≤ builder.packetLimit

/-- **One append** writes the record that it asks for, or changes nothing. -/
theorem call_spec (catalog : SignalCatalogExport) (provider : SignalCatalogView)
    {header : LiveHeader} {records : List LiveRecord} (holds : builder.Holds header records)
    (call : PacketCall) :
    (∃ record builder', call.record catalog provider = some record ∧
        builder.call catalog provider call = (builder', true) ∧
        builder'.Holds header (records ++ [record]) ∧
        builder'.packetLimit = builder.packetLimit) ∨
      builder.call catalog provider call = (builder, false) := by
  rcases call_cases catalog provider builder call with
    refused | ⟨handle, metadata, status, value, hrecord, hcall⟩
  · exact Or.inr refused
  cases haccepted : (builder.appendStatus handle metadata status value).2 with
  | false =>
    -- the room is checked before anything is written
    refine Or.inr (hcall.trans ?_)
    cases hcoded : wireTypeCode metadata.type with
    | none => exact appendStatus_uncoded builder handle status value hcoded
    | some typeCode =>
      by_cases short : value.length ≤ 4
      · by_cases refused : builder.refuses handle
        · simp [appendStatus, hcoded, refused]
        · rcases appendStatus_spec holds.writes hcoded refused short with
            ⟨builder', hwrite, -⟩ | ⟨hfull, -⟩
          · rw [hwrite] at haccepted
            cases haccepted
          · exact hfull
      · simp only [appendStatus, hcoded, if_pos (Nat.lt_of_not_le short)]
  | true =>
    obtain ⟨⟨typeCode, hcoded⟩, -, accepts, short, room⟩ := appendStatus_room haccepted
    rw [hcoded] at hrecord
    rcases appendStatus_spec holds.writes hcoded accepts short with
      ⟨builder', hwrite, hwrites, hlimit⟩ | ⟨hfull, -⟩
    · refine Or.inl ⟨_, builder', hrecord, hcall.trans hwrite, ⟨hwrites, ?_, ?_⟩, hlimit⟩
      · intro record hmem
        rcases List.mem_append.mp hmem with hmem | hmem
        · exact holds.written record hmem
        · rw [List.mem_singleton.mp hmem]
          simp only [refuses, not_or] at accepts
          have known : handle ≤ 64 := Nat.le_of_not_lt accepts.2.1
          exact ⟨accepts.1, known, Nat.lt_of_le_of_lt known (by decide), short⟩
      · have grown : builder'.packet.bytes.length =
            builder.packet.bytes.length + (5 + value.length) := by
          rw [hwrites.bytes, holds.writes.bytes, List.flatMap_append, List.flatMap_singleton,
            ← List.append_assoc, List.length_append,
            LiveRecord.length_bytes]
          rfl
        rw [grown, hlimit]
        exact room
    · rw [hfull] at haccepted
      cases haccepted

/-- A builder without a header refuses everything. -/
theorem call_of_invalid (invalid : builder.valid = false) (call : PacketCall) :
    builder.call catalog provider call = (builder, false) := by
  rcases call_cases catalog provider builder call with
    refused | ⟨handle, metadata, status, value, -, hcall⟩
  · exact refused
  · rw [hcall]
    cases hcoded : wireTypeCode metadata.type <;> simp [appendStatus, hcoded, invalid]

/-! ### Every sequence of appends -/

theorem packetLimitOf_eq (attMtu : ℕ) : packetLimitOf attMtu = min (attMtu - 3) 244 := by
  have overhead : kExtensibleLiveSignalMtuOverheadBytes = 3 := rfl
  have most : kExtensibleLiveSignalMaxPacketBytes = 244 := rfl
  unfold packetLimitOf
  dsimp only
  split_ifs <;> omega

/-- A builder has its header, or nothing at all. -/
theorem create_cases (catalog : SignalCatalogExport) (catalogToken : UInt32) (sequence : UInt16)
    (telemetryStarted : Bool) (attMtu : ℕ) :
    let builder := create catalog catalogToken sequence telemetryStarted attMtu
    builder.packetLimit = packetLimitOf attMtu ∧
      (builder.Holds ⟨sequence, if telemetryStarted then kTelemetryStartedFlag else 0,
          catalogToken⟩ [] ∨
        builder.valid = false ∧ builder.packet.bytes = []) := by
  intro builder
  by_cases closed : !catalog.available ∨ catalogToken = 0 ∨
      packetLimitOf attMtu < kExtensibleLiveSignalHeaderBytes
  · have empty : builder = { packetLimit := packetLimitOf attMtu
                             limited := packetLimitOf_le attMtu } := if_pos closed
    rw [empty]
    exact ⟨rfl, Or.inr ⟨rfl, rfl⟩⟩
  · simp only [not_or, Bool.not_eq_true', Bool.not_eq_false, Nat.not_lt] at closed
    obtain ⟨available, token, room⟩ := closed
    obtain ⟨writes, limit⟩ :=
      @writes_create catalog catalogToken sequence telemetryStarted attMtu available token room
    refine ⟨limit, Or.inl ⟨writes, fun record hmem => absurd hmem List.not_mem_nil, ?_⟩⟩
    rw [writes.bytes, limit]
    exact room

/-- What a builder and the trace of its appends have in common. -/
def Agrees (catalog : SignalCatalogExport) (provider : SignalCatalogView) (header : LiveHeader)
    (limit : ℕ) (builder : ExtensibleLiveSignalPacketBuilder) (trace : List (PacketCall × Bool)) :
    Prop :=
  builder.packetLimit = limit ∧
    (builder.Holds header (acceptedRecords catalog provider trace) ∨
      builder.valid = false ∧ builder.packet.bytes = [] ∧
        acceptedRecords catalog provider trace = []) ∧
    ∀ entry ∈ trace, entry.2 = true → ∃ record, entry.1.record catalog provider = some record

/-- One append keeps the agreement. -/
theorem Agrees.snoc {header : LiveHeader} {limit : ℕ} {trace : List (PacketCall × Bool)}
    (agrees : Agrees catalog provider header limit builder trace) (call : PacketCall) :
    Agrees catalog provider header limit (builder.call catalog provider call).1
      (trace ++ [(call, (builder.call catalog provider call).2)]) := by
  obtain ⟨hlimit, state, asked⟩ := agrees
  have extended : ∀ accepted, acceptedRecords catalog provider (trace ++ [(call, accepted)]) =
      acceptedRecords catalog provider trace ++
        (if accepted then call.record catalog provider else none).toList := by
    intro accepted
    rw [acceptedRecords, List.filterMap_append, List.filterMap_cons]
    cases (if accepted = true then call.record catalog provider else none) <;> rfl
  have unchanged : builder.call catalog provider call = (builder, false) →
      Agrees catalog provider header limit (builder.call catalog provider call).1
        (trace ++ [(call, (builder.call catalog provider call).2)]) := by
    intro refused
    rw [refused]
    refine ⟨hlimit, ?_, fun entry hmem accepted => ?_⟩
    · rw [extended]
      simpa using state
    · rcases List.mem_append.mp hmem with hmem | hmem
      · exact asked entry hmem accepted
      · rw [List.mem_singleton.mp hmem] at accepted
        cases accepted
  rcases state with holds | ⟨invalid, empty, nothing⟩
  · rcases call_spec catalog provider holds call with
      ⟨record, builder', hrecord, hcall, holds', hlimit'⟩ | refused
    · rw [hcall]
      refine ⟨hlimit'.trans hlimit, Or.inl ?_, fun entry hmem accepted => ?_⟩
      · rw [extended, if_pos rfl, hrecord]
        exact holds'
      · rcases List.mem_append.mp hmem with hmem | hmem
        · exact asked entry hmem accepted
        · rw [List.mem_singleton.mp hmem]
          exact ⟨record, hrecord⟩
    · exact unchanged refused
  · exact unchanged (call_of_invalid invalid call)

theorem agrees_after (catalogToken : UInt32) (sequence : UInt16) (telemetryStarted : Bool)
    (attMtu : ℕ) (calls : List PacketCall) :
    Agrees catalog provider
      ⟨sequence, if telemetryStarted then kTelemetryStartedFlag else 0, catalogToken⟩
      (packetLimitOf attMtu)
      (Machine.after (call catalog provider)
        (create catalog catalogToken sequence telemetryStarted attMtu) calls)
      (Machine.trace (call catalog provider)
        (create catalog catalogToken sequence telemetryStarted attMtu) calls) := by
  refine Machine.invariant ⟨?_, ?_, ?_⟩ (fun _ _ call agrees => agrees.snoc call) calls
  · exact (create_cases ..).1
  · rcases (create_cases catalog catalogToken sequence telemetryStarted attMtu).2 with
      holds | ⟨invalid, empty⟩
    · exact Or.inl holds
    · exact Or.inr ⟨invalid, empty, rfl⟩
  · exact fun _ hmem => absurd hmem List.not_mem_nil

end ExtensibleLiveSignalPacketBuilder

/-- **The live packet codec.** Let any sequence of appends of readings, failures and bare statuses
reach a builder made with any catalogue, provider, token, sequence, flag and MTU. The packet is at
most `min (attMtu - 3) 244` bytes long; a further append that is refused leaves the builder and its
packet as they are; the accepted records have distinct handles; the wire grammar reads the packet
of a builder with a header as that header and the accepted records in order, and a builder without
one holds no bytes and accepts nothing. The record of an accepted reading bears the handle and the
type of its catalogue entry, a value exactly if the value of the reading can be encoded, and its
status, which is never fresh for a signal that is demoted. -/
theorem live_packet_codec (catalog : SignalCatalogExport) (provider : SignalCatalogView)
    (catalogToken : UInt32) (sequence : UInt16) (telemetryStarted : Bool) (attMtu : ℕ)
    (calls : List PacketCall) :
    let start := create catalog catalogToken sequence telemetryStarted attMtu
    let step := ExtensibleLiveSignalPacketBuilder.call catalog provider
    let builder := Machine.after step start calls
    let trace := Machine.trace step start calls
    let accepted := acceptedRecords catalog provider trace
    builder.packet.bytes.length ≤ min (attMtu - 3) 244 ∧
    (∀ call, (builder.call catalog provider call).2 = false →
      (builder.call catalog provider call).1 = builder) ∧
    (accepted.map LiveRecord.handle).Nodup ∧
    (builder.valid = true → decodePacket builder.packet.bytes = some
      (⟨sequence, if telemetryStarted then kTelemetryStartedFlag else 0, catalogToken⟩, accepted)) ∧
    (builder.valid = false → builder.packet.bytes = [] ∧ accepted = []) ∧
    ∀ handle reading, (PacketCall.reading handle reading, true) ∈ trace →
      ∃ metadata record, readableSignal catalog provider handle = some metadata ∧
        (PacketCall.reading handle reading).record catalog provider = some record ∧
        record.handle = handle ∧ wireTypeCode metadata.type = some record.typeCode ∧
        record.status.toNat = (reportedStatus metadata reading.availability).value +
          (if record.value = [] then 0 else kValuePresentBit) ∧
        record.value = encodedValue catalog handle metadata reading ∧
        (record.value ≠ [] ↔
          ∃ value, reading.value = some value ∧ Encodable catalog handle metadata value) ∧
        (freshnessIsUnset metadata = true →
          reportedStatus metadata reading.availability ≠ .fresh) := by
  intro start step builder trace accepted
  obtain ⟨limit, state, asked⟩ : Agrees catalog provider _ _ builder trace :=
    agrees_after catalogToken sequence telemetryStarted attMtu calls
  refine ⟨?_, ?_, ?_, ?_, ?_, ?_⟩
  · rw [← packetLimitOf_eq, ← limit]
    rcases state with holds | ⟨-, empty, -⟩
    · exact holds.within
    · rw [empty]
      exact Nat.zero_le _
  · intro call refused
    rcases state with holds | ⟨invalid, -, -⟩
    · rcases call_spec catalog provider holds call with
        ⟨record, builder', -, hcall, -⟩ | unchanged
      · rw [hcall] at refused
        cases refused
      · rw [unchanged]
    · rw [call_of_invalid invalid]
  · rcases state with holds | ⟨-, -, nothing⟩
    · exact holds.writes.distinct
    · rw [show accepted = [] from nothing]
      exact List.nodup_nil
  · intro valid
    rcases state with holds | ⟨invalid, -, -⟩
    · rw [holds.writes.bytes]
      exact decodePacket_bytes _ holds.written holds.writes.distinct
    · rw [invalid] at valid
      cases valid
  · intro invalid
    rcases state with holds | ⟨-, empty, nothing⟩
    · rw [holds.writes.valid] at invalid
      cases invalid
    · exact ⟨empty, nothing⟩
  · intro handle reading hmem
    obtain ⟨record, hrecord⟩ := asked _ hmem rfl
    obtain ⟨metadata, typeCode, hmetadata, hcode, rfl⟩ := recordOf_reading hrecord
    exact ⟨metadata, _, hmetadata, hrecord, rfl, hcode, statusRecord_status _ _ _ _, rfl,
      present_iff_encodable handle metadata reading,
      fun demoted => reportedStatus_demoted demoted _⟩

end AccessoryController.CompanionProtocol
