import AccessoryController.VehicleSignals.Catalog

/-!
# The profile runtime provider

The latest-state provider of a compiled profile. Every signal has a slot with its last value, the
timestamp of the sample and a watermark; a decode is taken only when its frame is stamped after
the watermark. The decoders are part of the generated tables and are functions of the frame; the
check of a raw frame belongs to the core library and is a parameter.

## Main definitions

* `ProfileTables`, `tableWellFormed`: a compiled profile and its check
* `SignalState`: the slot of a signal
* `ProfileState.read`: the reading of a signal
* `ProfileState.process`, `service`, `fault`, `reset`: the transitions of the provider
-/

namespace AccessoryController.ProfileRuntime

open VehicleCore VehicleSignals

def kMaxRuntimeSignals : ℕ := 64

def kMaxRuntimeMessages : ℕ := 64

def kMaxNotifyBindings : ℕ := 17

structure DecodeResult where
  id : SignalId := {}
  value : SignalValue := .boolean false
  valid : Bool := false
  deriving DecidableEq, Repr

/-- What a decoder leaves in the cleared scratch array, and the count it reports. -/
abbrev DecodeFunction := RawCanFrame → ℕ → Vector DecodeResult kMaxRuntimeSignals × ℕ

/-- One message of a profile: its decoder and the signals it owns. -/
structure DispatchEntry where
  identifier : ℕ := 0
  expectedDlc : ℕ := 0
  decode : DecodeFunction
  outputIds : List SignalId := []

/-- The results that the decoder of an entry reported, with the count it claims. -/
def DispatchEntry.decoded (entry : DispatchEntry) (frame : RawCanFrame) (capacity : ℕ) :
    List DecodeResult × ℕ :=
  let scratch := entry.decode frame capacity
  (scratch.1.toList.take scratch.2, scratch.2)

structure SignalFreshnessPolicy where
  id : SignalId := {}
  declared : Bool := false
  timeoutMs : ℕ := 0
  deriving DecidableEq, Repr

structure ProfileTables where
  catalog : SignalCatalogView := []
  freshnessPolicies : List SignalFreshnessPolicy := []
  dispatch : List DispatchEntry := []
  maxDecodeResults : ℕ := 0

def freshnessFor (tables : ProfileTables) (id : SignalId) : Option SignalFreshnessPolicy :=
  tables.freshnessPolicies.find? fun policy => policy.id == id

/-- The slot of a signal; an unknown signal has none. -/
def signalIndex (tables : ProfileTables) (id : SignalId) : ℕ :=
  if id.valid then (tables.catalog.findIdx? fun entry => entry.id == id).getD kMaxRuntimeSignals
  else kMaxRuntimeSignals

/-- A freshness policy names a signal and declares a timeout exactly if it has one. -/
def policyWellFormed (tables : ProfileTables) (policy : SignalFreshnessPolicy) : Prop :=
  (tables.catalog.find policy.id).isSome = true ∧
    if policy.declared then policy.timeoutMs ≠ 0 else policy.timeoutMs = 0

/-- A dispatch entry is a standard message with distinct known outputs. -/
def entryWellFormed (tables : ProfileTables) (entry : DispatchEntry) : Prop :=
  entry.identifier ≤ 0x7ff ∧ entry.expectedDlc ≤ kCanClassicPayloadBytes ∧
    entry.outputIds ≠ [] ∧ entry.outputIds.length ≤ tables.maxDecodeResults ∧
    (∀ id ∈ entry.outputIds, (tables.catalog.find id).isSome = true ∧
      (freshnessFor tables id).isSome = true) ∧
    entry.outputIds.Nodup

instance (tables : ProfileTables) (policy : SignalFreshnessPolicy) :
    Decidable (policyWellFormed tables policy) := by
  unfold policyWellFormed
  infer_instance

instance (tables : ProfileTables) (entry : DispatchEntry) :
    Decidable (entryWellFormed tables entry) := by
  unfold entryWellFormed
  infer_instance

/-- The check of a profile. Two entries share neither an identifier nor an output. -/
def tableWellFormed (tables : ProfileTables) : Prop :=
  tables.catalog.length ≤ kMaxRuntimeSignals ∧ tables.catalog.wellFormed ∧
    tables.freshnessPolicies.length = tables.catalog.length ∧
    tables.dispatch.length ≤ kMaxRuntimeMessages ∧
    tables.maxDecodeResults ≤ kMaxRuntimeSignals ∧
    (tables.dispatch ≠ [] → tables.maxDecodeResults ≠ 0) ∧
    (tables.catalog.countP fun entry => entry.capabilities.notify) ≤ kMaxNotifyBindings ∧
    (∀ policy ∈ tables.freshnessPolicies, policyWellFormed tables policy) ∧
    (tables.freshnessPolicies.map fun policy => policy.id).Nodup ∧
    (∀ entry ∈ tables.dispatch, entryWellFormed tables entry) ∧
    tables.dispatch.Pairwise fun prior entry => prior.identifier ≠ entry.identifier ∧
      ∀ id ∈ entry.outputIds, id ∉ prior.outputIds

instance (tables : ProfileTables) : Decidable (tables.dispatch ≠ []) := by
  cases tables.dispatch with
  | nil => exact isFalse fun h => h rfl
  | cons entry rest => exact isTrue (by simp)

instance (tables : ProfileTables) : Decidable (tableWellFormed tables) := by
  unfold tableWellFormed
  infer_instance

def findDispatch (tables : ProfileTables) (identifier : ℕ) : Option DispatchEntry :=
  tables.dispatch.find? fun entry => entry.identifier == identifier

/-! ### The slot of a signal -/

/-- The last sample of a signal with its flags. -/
structure SignalState where
  value : SignalValue := .boolean false
  sampleTimestampUs : MonotonicTimestamp := 0
  watermarkUs : MonotonicTimestamp := 0
  hasWatermark : Bool := false
  hasValue : Bool := false
  invalid : Bool := false
  dueReported : Bool := false
  deriving DecidableEq, Repr

/-- The last time at which a sample is fresh, saturating at the largest timestamp. -/
def freshnessDeadline (timestampUs : MonotonicTimestamp) (policy : SignalFreshnessPolicy) :
    MonotonicTimestamp :=
  let timeoutUs := policy.timeoutMs * 1000
  if maxTimestamp - timeoutUs < timestampUs then maxTimestamp else timestampUs + timeoutUs

namespace SignalState

def availabilityAt (sample : SignalState) (policy : SignalFreshnessPolicy)
    (nowUs : MonotonicTimestamp) : Availability :=
  if sample.invalid then .unavailable
  else if !sample.hasValue then .noData
  else if !policy.declared then .freshnessUnverified
  else if freshnessDeadline sample.sampleTimestampUs policy < nowUs then .stale
  else .fresh

/-- Raises the watermark; a timestamp at or before it is refused. -/
def updateWatermark (sample : SignalState) (timestampUs : MonotonicTimestamp) :
    Option SignalState :=
  if sample.hasWatermark ∧ timestampUs ≤ sample.watermarkUs then none
  else some { sample with watermarkUs := timestampUs, hasWatermark := true }

/-- The sample is past its deadline and this was not reported yet. -/
def due (sample : SignalState) (policy : SignalFreshnessPolicy) (nowUs : MonotonicTimestamp) :
    Bool :=
  policy.declared && sample.hasValue && !sample.invalid && !sample.dueReported &&
    decide (freshnessDeadline sample.sampleTimestampUs policy < nowUs)

/-- The watermark is at least `nowUs`. -/
def raiseWatermark (sample : SignalState) (nowUs : MonotonicTimestamp) : SignalState :=
  if !sample.hasWatermark ∨ sample.watermarkUs < nowUs then
    { sample with watermarkUs := nowUs, hasWatermark := true }
  else sample

/-- A sample that the next commit makes usable again. -/
def unusable (sample : SignalState) (policy : Option SignalFreshnessPolicy)
    (nowUs : MonotonicTimestamp) : Bool :=
  sample.invalid || sample.dueReported ||
    (sample.hasValue && policy.any fun policy =>
      sample.availabilityAt policy nowUs == .stale)

end SignalState

/-! ### The provider -/

inductive ProviderProcessStatus
  | ignored | applied | malformed | invalidResults | faulted
  deriving DecidableEq, Repr

/-- The evidence for the notification and acquisition adapters. -/
structure ProviderProcessResult where
  status : ProviderProcessStatus := .ignored
  changed : List SignalId := []
  due : List SignalId := []
  recovered : List SignalId := []
  deriving DecidableEq, Repr

/-- Appends an identifier to a list of the size of the signal table, once. -/
def appendUnique (values : List SignalId) (id : SignalId) : List SignalId :=
  if id ∈ values then values
  else if values.length < kMaxRuntimeSignals then values ++ [id] else values

/-- A provider. The slots are indexed as the catalogue is. -/
structure ProfileState where
  tables : ProfileTables := {}
  validTables : Bool := false
  signals : ℕ → SignalState := fun _ => {}

namespace ProfileState

/-- A provider over a profile and a synchronization that may be well formed. -/
def create (tables : ProfileTables) (synchronizationWellFormed : Bool) : ProfileState :=
  { tables, validTables := decide (tableWellFormed tables) && synchronizationWellFormed }

def setSignal (s : ProfileState) (index : ℕ) (sample : SignalState) : ProfileState :=
  { s with signals := Function.update s.signals index sample }

/-- The reading of a signal, or the failure of the request. -/
def read (s : ProfileState) (id : SignalId) (nowUs : MonotonicTimestamp) :
    Except SignalStatus SignalReading :=
  match s.tables.catalog.find id with
  | none => .error .invalidSignal
  | some metadata =>
    if !metadata.capabilities.read then .error .unsupportedCapability
    else if !s.validTables then .error .faulted
    else
      let index := signalIndex s.tables id
      if s.tables.catalog.length ≤ index ∨ kMaxRuntimeSignals ≤ index then .error .faulted
      else
        let sample := s.signals index
        match freshnessFor s.tables id with
        | none => .error .faulted
        | some policy =>
          .ok
            { value := if sample.hasValue then some sample.value else none
              availability := sample.availabilityAt policy nowUs
              validation := metadata.validation }

/-- A decode that cannot be used makes its signal unavailable. -/
def markInvalid (s : ProfileState) (id : SignalId) (timestampUs : MonotonicTimestamp)
    (result : ProviderProcessResult) : ProfileState × ProviderProcessResult :=
  let index := signalIndex s.tables id
  if s.tables.catalog.length ≤ index ∨ kMaxRuntimeSignals ≤ index then (s, result)
  else
    match (s.signals index).updateWatermark timestampUs with
    | none => (s, result)
    | some sample =>
      (s.setSignal index { sample with invalid := true },
        { result with changed := appendUnique result.changed id })

/-- Reports the samples that are past their deadlines. -/
def serviceSignal (s : ProfileState) (nowUs : MonotonicTimestamp)
    (result : ProviderProcessResult) (index : ℕ) : ProfileState × ProviderProcessResult :=
  match s.tables.catalog[index]? with
  | none => (s, result)
  | some metadata =>
    match freshnessFor s.tables metadata.id with
    | none => (s, result)
    | some policy =>
      if !(s.signals index).due policy nowUs then (s, result)
      else
        (s.setSignal index { s.signals index with dueReported := true },
          { result with due := appendUnique result.due metadata.id })

def serviceDueLocked (s : ProfileState) (nowUs : MonotonicTimestamp)
    (result : ProviderProcessResult) : ProfileState × ProviderProcessResult :=
  (List.range s.tables.catalog.length).foldl
    (fun state index => serviceSignal state.1 nowUs state.2 index) (s, result)

/-- The decoder reported each output of the entry exactly once. -/
def resultListWellFormed (s : ProfileState) (entry : DispatchEntry) (resultCount : ℕ)
    (results : List DecodeResult) : Prop :=
  resultCount = entry.outputIds.length ∧ resultCount ≤ s.tables.maxDecodeResults ∧
    (∀ result ∈ results, result.id ∈ entry.outputIds) ∧
    (results.map fun result => result.id).Nodup

instance (s : ProfileState) (entry : DispatchEntry) (resultCount : ℕ)
    (results : List DecodeResult) :
    Decidable (s.resultListWellFormed entry resultCount results) := by
  unfold resultListWellFormed
  infer_instance

end ProfileState

/-- A result that is invalid, or valid with a value the signal accepts and a finite number. -/
def acceptedResult (metadata : SignalMetadata) (result : DecodeResult) : Bool :=
  if !result.valid || !metadata.accepts result.value then !result.valid
  else result.value.asNumber.all Binary32.isFinite

namespace ProfileState

/-- A usable decode becomes the sample of its signal. -/
def commitValid (s : ProfileState) (metadata : SignalMetadata) (decoded : DecodeResult)
    (timestampUs nowUs : MonotonicTimestamp) (outcome : ProviderProcessResult) :
    ProfileState × ProviderProcessResult :=
  let index := signalIndex s.tables metadata.id
  if s.tables.catalog.length ≤ index ∨ kMaxRuntimeSignals ≤ index then (s, outcome)
  else
    match (s.signals index).updateWatermark timestampUs with
    | none => (s, outcome)
    | some raised =>
      let policy := freshnessFor s.tables metadata.id
      let sample : SignalState :=
        { raised with
          value := decoded.value
          sampleTimestampUs := timestampUs
          hasValue := true
          invalid := false
          dueReported := false }
      let usableAgain := raised.unusable policy nowUs &&
        policy.any fun policy => sample.availabilityAt policy nowUs != .stale
      (s.setSignal index sample,
        { outcome with
          changed := appendUnique outcome.changed metadata.id
          recovered := if usableAgain then appendUnique outcome.recovered metadata.id
            else outcome.recovered })

/-- Takes one result of a decoder; the flag records that one could not be used. -/
def commitResult (frame : RawCanFrame) (nowUs : MonotonicTimestamp)
    (state : (ProfileState × ProviderProcessResult) × Bool) (decoded : DecodeResult) :
    (ProfileState × ProviderProcessResult) × Bool :=
  let ((s, result), invalidResult) := state
  match s.tables.catalog.find decoded.id with
  | none => ((s, result), true)
  | some metadata =>
    if !acceptedResult metadata decoded then
      (s.markInvalid decoded.id frame.timestampUs result, true)
    else if decoded.valid then
      (s.commitValid metadata decoded frame.timestampUs nowUs result, invalidResult)
    else (s.markInvalid decoded.id frame.timestampUs result, invalidResult)

def markOutputs (s : ProfileState) (entry : DispatchEntry) (timestampUs : MonotonicTimestamp)
    (result : ProviderProcessResult) : ProfileState × ProviderProcessResult :=
  entry.outputIds.foldl (fun state id => state.1.markInvalid id timestampUs state.2) (s, result)

def service (s : ProfileState) (nowUs : MonotonicTimestamp) :
    ProfileState × ProviderProcessResult :=
  if !s.validTables then (s, { status := .faulted })
  else s.serviceDueLocked nowUs {}

/-- Makes one signal unavailable for frames up to `nowUs`. -/
def faultSignal (nowUs : MonotonicTimestamp) (state : ProfileState × ProviderProcessResult)
    (index : ℕ) : ProfileState × ProviderProcessResult :=
  let (s, result) := state
  match s.tables.catalog[index]? with
  | none => (s, result)
  | some metadata =>
    let sample := s.signals index
    (s.setSignal index { sample.raiseWatermark nowUs with invalid := true },
      if sample.invalid then result
      else { result with changed := appendUnique result.changed metadata.id })

def fault (s : ProfileState) (nowUs : MonotonicTimestamp) :
    ProfileState × ProviderProcessResult :=
  if !s.validTables then (s, { status := .faulted })
  else
    let (s, result) := (List.range s.tables.catalog.length).foldl (faultSignal nowUs)
      (s.serviceDueLocked nowUs {})
    (s, { result with status := .faulted })

/-- Forgets the sample of one signal, but not its watermark. -/
def resetSignal (nowUs : MonotonicTimestamp) (state : ProfileState × ProviderProcessResult)
    (index : ℕ) : ProfileState × ProviderProcessResult :=
  let (s, result) := state
  match s.tables.catalog[index]? with
  | none => (s, result)
  | some metadata =>
    (s.setSignal index
      { watermarkUs := ((s.signals index).raiseWatermark nowUs).watermarkUs
        hasWatermark := true },
      { result with changed := appendUnique result.changed metadata.id })

def reset (s : ProfileState) (nowUs : MonotonicTimestamp) :
    ProfileState × ProviderProcessResult :=
  if !s.validTables then (s, { status := .faulted })
  else
    let (s, result) := (List.range s.tables.catalog.length).foldl (resetSignal nowUs) (s, {})
    (s, { result with status := .applied })

/-- The frame has the shape of its entry. -/
def validShape (isValid : RawCanFrame → Bool) (frame : RawCanFrame) (entry : DispatchEntry) :
    Prop :=
  isValid frame = true ∧ frame.identifierFormat = .standard ∧ frame.remoteRequest = false ∧
    frame.identifier ≤ 0x7ff ∧ frame.dlc = entry.expectedDlc

instance (isValid : RawCanFrame → Bool) (frame : RawCanFrame) (entry : DispatchEntry) :
    Decidable (validShape isValid frame entry) := inferInstanceAs (Decidable (_ ∧ _))

/-- Processes one frame. A frame or a result list that does not fit its entry makes the outputs
of the entry unavailable. -/
def process (isValid : RawCanFrame → Bool) (s : ProfileState) (frame : RawCanFrame)
    (nowUs : MonotonicTimestamp) : ProfileState × ProviderProcessResult :=
  if !s.validTables then (s, { status := .faulted })
  else
    let (s, result) := s.serviceDueLocked nowUs {}
    match findDispatch s.tables frame.identifier with
    | none => (s, { result with status := .ignored })
    | some entry =>
      if ¬ validShape isValid frame entry then
        let (s, result) := s.markOutputs entry frame.timestampUs result
        (s, { result with status := .malformed })
      else
        let (results, resultCount) := entry.decoded frame s.tables.maxDecodeResults
        if ¬ s.resultListWellFormed entry resultCount results then
          let (s, result) := s.markOutputs entry frame.timestampUs result
          (s, { result with status := .invalidResults })
        else
          let ((s, result), invalidResult) :=
            results.foldl (commitResult frame nowUs) ((s, result), false)
          (s, { result with status := if invalidResult then .invalidResults else .applied })

end ProfileState

/-- The calls that change a provider, each with the time of its clock. -/
inductive ProviderCall
  | process (frame : RawCanFrame) (nowUs : MonotonicTimestamp)
  | service (nowUs : MonotonicTimestamp)
  | fault (nowUs : MonotonicTimestamp)
  | reset (nowUs : MonotonicTimestamp)

/-- One call on a provider. -/
def ProfileState.step (isValid : RawCanFrame → Bool) (s : ProfileState) :
    ProviderCall → ProfileState × ProviderProcessResult
  | .process frame nowUs => s.process isValid frame nowUs
  | .service nowUs => s.service nowUs
  | .fault nowUs => s.fault nowUs
  | .reset nowUs => s.reset nowUs

end AccessoryController.ProfileRuntime
