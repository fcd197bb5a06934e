import AccessoryController.ProfileRuntime.ResultLists

/-!
# Checked tables are safe to run

What the check of a profile buys its runtime. Every signal has one decoder at most, every slot that
a call uses is one of the catalogue's, and the result lists are complete. Whatever a decoder
returns, a frame moves no signal but the outputs of its entry; a list that is not one result for
each output makes them unavailable.

## Main definitions

* `ProfileState.Agree`: two providers that agree on the slots of their catalogue
* `CompleteLists`: the lists of a call name exactly what it did
* `ExactResults`: a decoder returns one result for each output

## Main results

* `alike_step`: a call uses no slot but those of the catalogue
* `completeLists_step`: the lists of every call are complete
* `checked_tables_run_safely`: the safety of checked tables
-/

namespace AccessoryController.ProfileRuntime

open VehicleCore VehicleSignals

variable (isValid : RawCanFrame → Bool)

/-! ### Slots -/

variable {frame : RawCanFrame} {x x' : ProfileState × ProviderProcessResult} {id : SignalId}
  {entry : DispatchEntry}

namespace ProfileState

/-- Two providers agree on their profile and on the slots of its catalogue; the slots outside it
hold what they should hold. -/
structure Agree (outside : ℕ → SignalState × SignalState) (s s' : ProfileState) : Prop where
  profile : s'.profile = s.profile
  slots : ∀ i < s.tables.catalog.length, s'.signals i = s.signals i
  outer : ∀ i, s.tables.catalog.length ≤ i → (s.signals i, s'.signals i) = outside i

variable {outside : ℕ → SignalState × SignalState} {s s' : ProfileState}
  {result : ProviderProcessResult} {timestampUs nowUs : MonotonicTimestamp}

theorem Agree.tables (agree : Agree outside s s') : s'.tables = s.tables :=
  tables_of_profile agree.profile

/-- A slot of the catalogue is set. -/
theorem Agree.setSignal (agree : Agree outside s s') {i : ℕ}
    (inside : i < s.tables.catalog.length) (sample : SignalState) :
    Agree outside (s.setSignal i sample) (s'.setSignal i sample) := by
  refine ⟨agree.profile, fun k hk => ?_, fun k hk => ?_⟩
  · rw [signals_setSignal, signals_setSignal, Function.update_apply, Function.update_apply]
    split
    · rfl
    · exact agree.slots k hk
  · have other : k ≠ i := Nat.ne_of_gt (Nat.lt_of_lt_of_le inside hk)
    rw [signals_setSignal, signals_setSignal, Function.update_of_ne other,
      Function.update_of_ne other]
    exact agree.outer k hk

/-- The states and the results of two calls agree. -/
def Alike (outside : ℕ → SignalState × SignalState)
    (x x' : ProfileState × ProviderProcessResult) : Prop :=
  Agree outside x.1 x'.1 ∧ x'.2 = x.2

theorem alike_serviceSignal (agree : Agree outside s s') (index : ℕ) :
    Alike outside (s.serviceSignal nowUs result index) (s'.serviceSignal nowUs result index) := by
  unfold serviceSignal
  rw [agree.tables]
  split
  · exact ⟨agree, rfl⟩
  next metadata there =>
    have inside := (List.getElem?_eq_some_iff.mp there).1
    rw [agree.slots index inside]
    split
    · exact ⟨agree, rfl⟩
    split
    · exact ⟨agree, rfl⟩
    · exact ⟨agree.setSignal inside _, rfl⟩

theorem alike_markInvalid (agree : Agree outside s s') (id : SignalId) :
    Alike outside (s.markInvalid id timestampUs result) (s'.markInvalid id timestampUs result) := by
  unfold markInvalid
  rw [agree.tables]
  dsimp only
  split
  · exact ⟨agree, rfl⟩
  next bounds =>
    have inside := Nat.not_le.mp (not_or.mp bounds).1
    rw [agree.slots _ inside]
    split
    · exact ⟨agree, rfl⟩
    · exact ⟨agree.setSignal inside _, rfl⟩

theorem alike_commitValid (agree : Agree outside s s') (metadata : SignalMetadata)
    (decoded : DecodeResult) :
    Alike outside (s.commitValid metadata decoded timestampUs nowUs result)
      (s'.commitValid metadata decoded timestampUs nowUs result) := by
  unfold commitValid
  rw [agree.tables]
  dsimp only
  split
  · exact ⟨agree, rfl⟩
  next bounds =>
    have inside := Nat.not_le.mp (not_or.mp bounds).1
    rw [agree.slots _ inside]
    split
    · exact ⟨agree, rfl⟩
    · exact ⟨agree.setSignal inside _, rfl⟩

theorem alike_commitResult {x x' : (ProfileState × ProviderProcessResult) × Bool}
    (alike : Alike outside x.1 x'.1 ∧ x'.2 = x.2) (decoded : DecodeResult) :
    Alike outside (commitResult frame nowUs x decoded).1 (commitResult frame nowUs x' decoded).1 ∧
      (commitResult frame nowUs x' decoded).2 = (commitResult frame nowUs x decoded).2 := by
  obtain ⟨⟨s, result⟩, flag⟩ := x
  obtain ⟨⟨s', result'⟩, flag'⟩ := x'
  obtain ⟨⟨agree, rfl⟩, rfl⟩ := alike
  dsimp only at agree
  unfold commitResult
  dsimp only
  rw [agree.tables]
  split
  · exact ⟨⟨agree, rfl⟩, rfl⟩
  split
  · exact ⟨alike_markInvalid agree _, rfl⟩
  split
  · exact ⟨alike_commitValid agree _ _, rfl⟩
  · exact ⟨alike_markInvalid agree _, rfl⟩

/-- Loops of steps that keep alike states alike keep them alike. -/
theorem alike_foldl {X : Type}
    {f : ProfileState × ProviderProcessResult → X → ProfileState × ProviderProcessResult}
    (l : List X) (alike : Alike outside x x')
    (step : ∀ y y', Alike outside y y' → ∀ a, Alike outside (f y a) (f y' a)) :
    Alike outside (l.foldl f x) (l.foldl f x') :=
  List.foldl_rel alike fun a _ y y' h => step y y' h a

theorem alike_serviceDueLocked (nowUs : MonotonicTimestamp) (result : ProviderProcessResult)
    (agree : Agree outside s s') :
    Alike outside (s.serviceDueLocked nowUs result) (s'.serviceDueLocked nowUs result) := by
  unfold serviceDueLocked
  rw [agree.tables]
  refine alike_foldl _ ⟨agree, rfl⟩ fun y y' alike index => ?_
  rw [alike.2]
  exact alike_serviceSignal alike.1 index

theorem alike_markOutputs (agree : Agree outside s s') (entry : DispatchEntry) :
    Alike outside (s.markOutputs entry timestampUs result)
      (s'.markOutputs entry timestampUs result) := by
  refine alike_foldl _ ⟨agree, rfl⟩ fun y y' alike id => ?_
  rw [alike.2]
  exact alike_markInvalid alike.1 id

theorem alike_faultSignal (alike : Alike outside x x') (index : ℕ) :
    Alike outside (faultSignal nowUs x index) (faultSignal nowUs x' index) := by
  obtain ⟨s, result⟩ := x
  obtain ⟨s', result'⟩ := x'
  obtain ⟨agree, rfl⟩ := alike
  dsimp only at agree
  unfold faultSignal
  dsimp only
  rw [agree.tables]
  split
  · exact ⟨agree, rfl⟩
  next there =>
    have inside := (List.getElem?_eq_some_iff.mp there).1
    rw [agree.slots index inside]
    exact ⟨agree.setSignal inside _, rfl⟩

theorem alike_resetSignal (alike : Alike outside x x') (index : ℕ) :
    Alike outside (resetSignal nowUs x index) (resetSignal nowUs x' index) := by
  obtain ⟨s, result⟩ := x
  obtain ⟨s', result'⟩ := x'
  obtain ⟨agree, rfl⟩ := alike
  dsimp only at agree
  unfold resetSignal
  dsimp only
  rw [agree.tables]
  split
  · exact ⟨agree, rfl⟩
  next there =>
    have inside := (List.getElem?_eq_some_iff.mp there).1
    rw [agree.slots index inside]
    exact ⟨agree.setSignal inside _, rfl⟩

theorem Alike.status (alike : Alike outside x x') (status : ProviderProcessStatus) :
    Alike outside (x.1, { x.2 with status }) (x'.1, { x'.2 with status }) :=
  ⟨alike.1, by rw [alike.2]⟩

theorem alike_process
    {isValid : RawCanFrame → Bool} (agree : Agree outside s s') (frame : RawCanFrame) :
    Alike outside (s.process isValid frame nowUs) (s'.process isValid frame nowUs) := by
  have valid : s'.validTables = s.validTables := congrArg Prod.snd agree.profile
  have served := alike_serviceDueLocked nowUs {} agree
  unfold process
  rw [valid]
  split
  · exact ⟨agree, rfl⟩
  generalize s.serviceDueLocked nowUs {} = x at served
  generalize s'.serviceDueLocked nowUs {} = x' at served
  obtain ⟨s₁, result⟩ := x
  obtain ⟨s₁', result'⟩ := x'
  obtain ⟨agree₁, rfl⟩ := served
  dsimp only at agree₁ ⊢
  rw [agree₁.tables]
  split
  · exact ⟨agree₁, rfl⟩
  next entry _ =>
    split
    · exact (alike_markOutputs agree₁ entry).status _
    have same : ∀ resultCount results, s₁'.resultListWellFormed entry resultCount results ↔
        s₁.resultListWellFormed entry resultCount results := by
      intro resultCount results
      unfold resultListWellFormed
      rw [agree₁.tables]
    simp only [same]
    split
    · exact (alike_markOutputs agree₁ entry).status _
    · have taken := List.foldl_rel
        (r := fun x x' : (ProfileState × ProviderProcessResult) × Bool =>
          Alike outside x.1 x'.1 ∧ x'.2 = x.2)
        (l := (entry.decoded frame s₁.tables.maxDecodeResults).1)
        (f := commitResult frame nowUs) (g := commitResult frame nowUs)
        (a := ((s₁, result'), false)) (b := ((s₁', result'), false)) ⟨⟨agree₁, rfl⟩, rfl⟩
        fun decoded _ x x' alike => alike_commitResult alike decoded
      generalize List.foldl _ ((s₁, result'), false) _ = y at taken ⊢
      generalize List.foldl _ ((s₁', result'), false) _ = y' at taken ⊢
      obtain ⟨⟨s₂, result₂⟩, flag⟩ := y
      obtain ⟨⟨s₂', result₂'⟩, flag'⟩ := y'
      obtain ⟨alike, rfl⟩ := taken
      exact alike.status _

/-- **A call uses no slot but those of the catalogue**: two providers that agree on these answer
alike, and agree afterwards. -/
theorem alike_step (isValid : RawCanFrame → Bool)
    (outside : ℕ → SignalState × SignalState) (agree : Agree outside s s') (call : ProviderCall) :
    Alike outside (s.step isValid call) (s'.step isValid call) := by
  have valid : s'.validTables = s.validTables := congrArg Prod.snd agree.profile
  cases call with
  | process frame nowUs => exact alike_process agree frame
  | service nowUs =>
    simp only [step, service, valid]
    split
    · exact ⟨agree, rfl⟩
    · exact alike_serviceDueLocked nowUs {} agree
  | fault nowUs =>
    simp only [step, fault, valid]
    split
    · exact ⟨agree, rfl⟩
    · rw [agree.tables]
      exact (alike_foldl _ (alike_serviceDueLocked nowUs {} agree) fun _ _ alike index =>
        alike_faultSignal alike index).status _
  | reset nowUs =>
    simp only [step, reset, valid]
    split
    · exact ⟨agree, rfl⟩
    · rw [agree.tables]
      have start : Alike outside (s, {}) (s', {}) := ⟨agree, rfl⟩
      exact (alike_foldl _ start fun _ _ alike index => alike_resetSignal alike index).status _

end ProfileState

/-! ### Result lists -/

/-- The sample of a signal expires in a call. -/
def dueIn (s : ProfileState) (id : SignalId) : ProviderCall → Prop
  | .process _ nowUs | .service nowUs | .fault nowUs =>
    (s.tables.catalog.find id).isSome = true ∧ s.expires nowUs id = true
  | .reset _ => False

/-- A call changes a signal: a frame decodes it, or a fault or a reset takes its value away. -/
def changedIn (s : ProfileState) (id : SignalId) : ProviderCall → Prop
  | .process frame _ => accepts isValid s frame id = true
  | .service _ => False
  | .fault _ => (s.tables.catalog.find id).isSome = true ∧ (s.signal id).invalid = false
  | .reset _ => (s.tables.catalog.find id).isSome = true

/-- A call makes a signal usable again. -/
def recoveredIn (s : ProfileState) (id : SignalId) : ProviderCall → Prop
  | .process frame nowUs => s.recovers isValid frame nowUs id = true
  | .service _ | .fault _ | .reset _ => False

/-- A list names the signals that it should, once each, and there are no more than the catalogue
has. -/
structure CompleteList (s : ProfileState) (names : List SignalId) (named : SignalId → Prop) :
    Prop where
  complete : ∀ id, id ∈ names ↔ named id
  nodup : names.Nodup
  room : names.length ≤ s.tables.catalog.length

/-- The lists of a call name exactly what it did. -/
structure CompleteLists (s : ProfileState) (call : ProviderCall) (result : ProviderProcessResult) :
    Prop where
  due : CompleteList s result.due fun id => dueIn s id call
  changed : CompleteList s result.changed fun id => changedIn isValid s id call
  recovered : CompleteList s result.recovered fun id => recoveredIn isValid s id call

variable {isValid} {s : ProfileState}

theorem CompleteList.of_known (wellFormed : s.tables.catalog.wellFormed) {names : List SignalId}
    {named : SignalId → Prop} (complete : ∀ id, id ∈ names ↔ named id) (nodup : names.Nodup)
    (known : ∀ id, named id → (s.tables.catalog.find id).isSome = true) :
    CompleteList s names named := by
  refine ⟨complete, nodup, ?_⟩
  have subset : names ⊆ s.tables.catalog.map SignalMetadata.id := fun id mem =>
    (known_iff wellFormed).mp (known id ((complete id).mp mem))
  have := (nodup.subperm subset).length_le
  rwa [List.length_map] at this

theorem CompleteList.nil {named : SignalId → Prop} (none_named : ∀ id, ¬named id) :
    CompleteList s [] named :=
  ⟨fun id => ⟨fun mem => absurd mem List.not_mem_nil, fun h => absurd h (none_named id)⟩,
    List.nodup_nil, Nat.zero_le _⟩

/-- A list of the catalogue's signals that meet a condition is complete. -/
theorem CompleteList.filter (wellFormed : s.tables.catalog.wellFormed) (p : SignalId → Bool) :
    CompleteList s ((s.tables.catalog.map SignalMetadata.id).filter p) fun id =>
      (s.tables.catalog.find id).isSome = true ∧ p id = true := by
  refine .of_known wellFormed (fun id => ?_) ((ids_nodup wellFormed).filter _) fun _ h => h.1
  rw [List.mem_filter, known_iff wellFormed]

/-- A decoded signal is an output of the entry of its frame. -/
theorem mem_outputs_of_decodeOf {tables : ProfileTables}
    (told : (decodeOf isValid tables frame id).isSome = true) :
    ∃ entry, findDispatch tables frame.identifier = some entry ∧ id ∈ entry.outputIds := by
  unfold decodeOf at told
  split at told
  · cases told
  next entry hentry =>
    refine ⟨entry, hentry, Classical.byContradiction fun outside => ?_⟩
    rw [if_pos outside] at told
    cases told

theorem known_of_accepts (wellFormed : tableWellFormed s.tables)
    (taken : accepts isValid s frame id = true) : (s.tables.catalog.find id).isSome = true := by
  obtain ⟨-, -, -, -, -, -, -, -, -, entries, -⟩ := wellFormed
  unfold accepts at taken
  rw [Bool.and_eq_true] at taken
  obtain ⟨entry, hentry, mem⟩ := mem_outputs_of_decodeOf taken.1
  obtain ⟨-, -, -, -, known, -⟩ := entries entry (List.mem_of_find?_eq_some hentry)
  exact (known id mem).1

/-- A signal that recovers takes the frame. -/
theorem accepts_of_recovers {nowUs : MonotonicTimestamp}
    (recovers : s.recovers isValid frame nowUs id = true) : accepts isValid s frame id = true := by
  unfold ProfileState.recovers SignalState.recoversAt at recovers
  simp only [Bool.and_eq_true] at recovers
  obtain ⟨⟨⟨usable, taken⟩, -⟩, -⟩ := recovers
  unfold accepts
  rw [taken, Bool.and_true]
  cases hdecode : decodeOf isValid s.tables frame id with
  | none => simp [hdecode] at usable
  | some decode => rfl

/-- **The lists of every call are complete.** -/
theorem completeLists_step (wellFormed : tableWellFormed s.tables) (valid : s.validTables = true)
    (call : ProviderCall) : CompleteLists isValid s call (s.step isValid call).2 := by
  have small := wellFormed.1
  have catalogue := wellFormed.2.1
  have due : ∀ nowUs, _ := fun nowUs => CompleteList.filter catalogue (s.expires nowUs)
  cases call with
  | process frame nowUs =>
    obtain ⟨hdue, ⟨changed, changedNodup⟩, recovered, recoveredNodup⟩ :=
      process_lists isValid frame nowUs wellFormed valid
    refine ⟨?_, .of_known catalogue changed changedNodup fun id => known_of_accepts wellFormed,
      .of_known catalogue recovered recoveredNodup fun id recovers =>
        known_of_accepts wellFormed (accepts_of_recovers recovers)⟩
    rw [ProfileState.step, hdue]
    exact due nowUs
  | service nowUs =>
    rw [ProfileState.step, service_lists nowUs small catalogue valid]
    exact ⟨due nowUs, .nil fun _ => id, .nil fun _ => id⟩
  | fault nowUs =>
    rw [ProfileState.step, fault_lists nowUs small catalogue valid]
    refine ⟨due nowUs, ?_, .nil fun _ => id⟩
    have changed := CompleteList.filter catalogue fun id => !(s.signal id).invalid
    simp only [Bool.not_eq_true'] at changed
    exact changed
  | reset nowUs =>
    rw [ProfileState.step, reset_lists nowUs small catalogue valid]
    exact ⟨.nil fun _ => id, .of_known catalogue (fun id => (known_iff catalogue).symm)
      (ids_nodup catalogue) fun _ => id, .nil fun _ => id⟩

/-! ### Isolation -/

/-- A decoder returns exactly one result for each output of its entry. -/
def ExactResults (tables : ProfileTables) (entry : DispatchEntry) (frame : RawCanFrame) : Prop :=
  let (results, count) := entry.decoded frame tables.maxDecodeResults
  count = results.length ∧ (results.map DecodeResult.id).Perm entry.outputIds

/-- The check of a result list is exact. -/
theorem resultListWellFormed_iff (frame : RawCanFrame) (checked : entryWellFormed s.tables entry)
    (small : s.tables.maxDecodeResults ≤ kMaxRuntimeSignals) :
    (s.resultListWellFormed entry (entry.decoded frame s.tables.maxDecodeResults).2
      (entry.decoded frame s.tables.maxDecodeResults).1) ↔ ExactResults s.tables entry frame := by
  obtain ⟨-, -, -, few, -, distinct⟩ := checked
  unfold ProfileState.resultListWellFormed ExactResults DispatchEntry.decoded
  dsimp only
  generalize entry.decode frame s.tables.maxDecodeResults = scratch
  have length : (scratch.1.toList.take scratch.2).length = min scratch.2 kMaxRuntimeSignals := by
    rw [List.length_take, Vector.length_toList]
  generalize scratch.1.toList.take scratch.2 = results at length
  constructor
  · rintro ⟨count, -, outputs, nodup⟩
    have all : results.length = entry.outputIds.length := by omega
    refine ⟨by omega, (nodup.subperm fun id mem => ?_).perm_of_length_le (by simp [all])⟩
    obtain ⟨decoded, listed, rfl⟩ := List.mem_map.mp mem
    exact outputs decoded listed
  · rintro ⟨count, perm⟩
    have all : results.length = entry.outputIds.length := by
      rw [← perm.length_eq, List.length_map]
    exact ⟨count.trans all, by omega,
      fun decoded mem => perm.subset (List.mem_map_of_mem mem), perm.nodup_iff.mpr distinct⟩

/-- A list that is not one result for each output says of every output that it has no value. -/
theorem decodeOf_inexact (isValid : RawCanFrame → Bool) (wellFormed : tableWellFormed s.tables)
    (hentry : findDispatch s.tables frame.identifier = some entry)
    (inexact : ¬ExactResults s.tables entry frame) :
    decodeOf isValid s.tables frame id = if id ∈ entry.outputIds then some none else none := by
  have checked := wellFormed.2.2.2.2.2.2.2.2.2.1 entry (List.mem_of_find?_eq_some hentry)
  have refused := mt (resultListWellFormed_iff frame checked
    wellFormed.2.2.2.2.1).mp inexact
  unfold decodeOf
  rw [hentry]
  dsimp only
  by_cases mem : id ∈ entry.outputIds
  · rw [if_neg (not_not.mpr mem), if_pos mem]
    split
    · rfl
    · exact if_pos refused
  · rw [if_pos mem, if_neg mem]

section

variable (isValid) (nowUs : MonotonicTimestamp) (wellFormed : tableWellFormed s.tables)
  (valid : s.validTables = true) {frame : RawCanFrame} {id : SignalId}
  (known : (s.tables.catalog.find id).isSome = true)

include wellFormed valid known

/-- **A frame moves no signal but the outputs of its entry**: another is serviced, and that is all. -/
theorem process_elsewhere
    (elsewhere : ∀ entry, findDispatch s.tables frame.identifier = some entry →
      id ∉ entry.outputIds) :
    (s.process isValid frame nowUs).1.signal id = (s.service nowUs).1.signal id := by
  have silent : decodeOf isValid s.tables frame id = none := by
    cases hdecode : decodeOf isValid s.tables frame id with
    | none => rfl
    | some decode =>
      have told : (decodeOf isValid s.tables frame id).isSome = true := by rw [hdecode]; rfl
      obtain ⟨entry, hentry, mem⟩ := mem_outputs_of_decodeOf told
      exact absurd mem (elsewhere entry hentry)
  have processed := ProfileState.tables_of_profile
    (ProfileState.profile_process isValid s frame nowUs)
  have served := ProfileState.tables_of_profile (ProfileState.profile_step isValid s (.service nowUs))
  rw [ProfileState.step] at served
  unfold ProfileState.signal
  rw [processed, served, ProfileState.process_slot wellFormed valid known, silent]
  unfold ProfileState.service
  rw [valid, Bool.not_true, if_neg Bool.false_ne_true]
  rfl

/-- **A list that is not one result for each output** commits no value, and makes every output
unavailable whose watermark is older than the frame. -/
theorem process_inexact (hentry : findDispatch s.tables frame.identifier = some entry)
    (inexact : ¬ExactResults s.tables entry frame) : let before := s.signal id
    let after := (s.process isValid frame nowUs).1.signal id
    (after.value = before.value ∧ after.sampleTimestampUs = before.sampleTimestampUs ∧
        after.hasValue = before.hasValue) ∧
      (id ∈ entry.outputIds →
        (before.hasWatermark = true → before.watermarkUs < frame.timestampUs) →
        after.invalid = true) := by
  intro before after
  have slot : after = ((s.serviceDueLocked nowUs {}).1.signals
      (signalIndex s.tables id)).deliver frame.timestampUs
        (if id ∈ entry.outputIds then some none else none) := by
    rw [← decodeOf_inexact isValid wellFormed hentry inexact,
      ← @ProfileState.process_slot isValid s frame id nowUs wellFormed valid known]
    exact congrArg (fun tables => (s.process isValid frame nowUs).1.signals (signalIndex tables id))
      (ProfileState.tables_of_profile (ProfileState.profile_process isValid s frame nowUs))
  rw [slot, serviceDueLocked_signals]
  change (_ ∧ _) ∧ (_ → ((s.signal id).hasWatermark = true → (s.signal id).watermarkUs < _) → _)
  have here : s.signals (signalIndex s.tables id) = before := rfl
  rw [here]
  generalize s.slotPolicy (signalIndex s.tables id) = policy
  have kept : (before.reported policy nowUs).value = before.value ∧
      (before.reported policy nowUs).sampleTimestampUs = before.sampleTimestampUs ∧
      (before.reported policy nowUs).hasValue = before.hasValue := by
    unfold SignalState.reported
    split <;> exact ⟨rfl, rfl, rfl⟩
  have taken := SignalState.updateWatermark_reported nowUs policy before frame.timestampUs
  by_cases mem : id ∈ entry.outputIds
  · rw [if_pos mem]
    unfold SignalState.deliver
    cases hraised : (before.reported policy nowUs).updateWatermark frame.timestampUs with
    | none =>
      refine ⟨kept, fun _ older => ?_⟩
      rw [hraised] at taken
      have late : before.hasWatermark = true ∧ frame.timestampUs ≤ before.watermarkUs := by
        by_contra fresh
        unfold SignalState.updateWatermark at taken
        rw [if_neg fresh] at taken
        cases taken
      exact absurd (older late.1) (Nat.not_lt.mpr late.2)
    | some raised =>
      refine ⟨?_, fun _ _ => rfl⟩
      unfold SignalState.updateWatermark at hraised
      split at hraised
      · cases hraised
      · obtain rfl := Option.some.inj hraised
        exact kept
  · rw [if_neg mem]
    exact ⟨kept, fun listed => absurd listed mem⟩

end

/-- An unavailable signal reads unavailable at every time. -/
theorem read_invalid (invalid : (s.signal id).invalid = true) {readUs : ℕ} {reading : SignalReading}
    (read : s.read id readUs = .ok reading) : reading.availability = .unavailable := by
  unfold ProfileState.read at read
  change (s.signals (signalIndex s.tables id)).invalid = true at invalid
  split at read
  · cases read
  split at read
  · cases read
  split at read
  · cases read
  dsimp only at read
  split at read
  · cases read
  split at read
  · cases read
  · obtain rfl := Except.ok.inj read
    unfold SignalState.availabilityAt
    rw [if_pos invalid]

/-! ### Runs -/

/-- Two entries of a checked table share no output. -/
theorem one_decoder {tables : ProfileTables} (wellFormed : tableWellFormed tables) {i j : ℕ}
    {first second : DispatchEntry} (hi : tables.dispatch[i]? = some first)
    (hj : tables.dispatch[j]? = some second) (here : id ∈ first.outputIds)
    (there : id ∈ second.outputIds) : i = j := by
  obtain ⟨-, -, -, -, -, -, -, -, -, -, apart⟩ := wellFormed
  obtain ⟨hi', rfl⟩ := List.getElem?_eq_some_iff.mp hi
  obtain ⟨hj', rfl⟩ := List.getElem?_eq_some_iff.mp hj
  rw [List.pairwise_iff_getElem] at apart
  rcases Nat.lt_trichotomy i j with lt | rfl | gt
  · exact absurd here ((apart i j hi' hj' lt).2 id there)
  · rfl
  · exact absurd there ((apart j i hj' hi' gt).2 id here)

variable (isValid)

/-- **Checked tables are safe to run.** A signal has one decoder at most, and every slot of an
output is one of the catalogue's, for which there is room. In every run, the lists of every call
name exactly what it did, no call touches or depends on a slot outside the catalogue, and a frame
moves no signal but the outputs of its entry, apart from the report of an expiry, which a service
makes as well. Whatever a decoder returns: a list that is not one result for each output commits no
value and makes every output unavailable whose watermark is older than the frame. -/
theorem checked_tables_run_safely (tables : ProfileTables) (wellFormed : tableWellFormed tables) :
    (∀ (i j : ℕ) (first second : DispatchEntry) (id : SignalId),
      tables.dispatch[i]? = some first → tables.dispatch[j]? = some second →
      id ∈ first.outputIds → id ∈ second.outputIds → i = j) ∧
    (tables.catalog.length ≤ kMaxRuntimeSignals ∧ ∀ entry ∈ tables.dispatch,
      entry.outputIds.length ≤ kMaxRuntimeSignals ∧
        ∀ id ∈ entry.outputIds, signalIndex tables id < tables.catalog.length) ∧
    ∀ calls : List ProviderCall,
      let s := Machine.after (ProfileState.step isValid) (.create tables true) calls
      (∀ call, CompleteLists isValid s call (s.step isValid call).2 ∧
        (∀ i, tables.catalog.length ≤ i → (s.step isValid call).1.signals i = s.signals i) ∧
        ∀ s' : ProfileState, s'.profile = s.profile →
          (∀ i < tables.catalog.length, s'.signals i = s.signals i) →
          (s'.step isValid call).2 = (s.step isValid call).2 ∧ ∀ i < tables.catalog.length,
            (s'.step isValid call).1.signals i = (s.step isValid call).1.signals i) ∧
      ∀ frame nowUs id, (tables.catalog.find id).isSome = true →
        let before := s.signal id
        let after := (s.process isValid frame nowUs).1.signal id
        ((∀ entry, findDispatch tables frame.identifier = some entry → id ∉ entry.outputIds) →
          after = (s.service nowUs).1.signal id ∧ after.core = before.core) ∧
        ∀ entry, findDispatch tables frame.identifier = some entry →
          ¬ExactResults tables entry frame →
          (after.value = before.value ∧ after.sampleTimestampUs = before.sampleTimestampUs ∧
            after.hasValue = before.hasValue) ∧
          (id ∈ entry.outputIds →
            (before.hasWatermark = true → before.watermarkUs < frame.timestampUs) →
            ∀ readUs reading, (s.process isValid frame nowUs).1.read id readUs = .ok reading →
              reading.availability = .unavailable) := by
  refine ⟨fun i j first second id => one_decoder wellFormed, ⟨wellFormed.1, ?_⟩, fun calls => ?_⟩
  · obtain ⟨small, -, -, -, few, -, -, -, -, entries, -⟩ := wellFormed
    intro entry mem
    obtain ⟨-, -, -, outputs, known, -⟩ := entries entry mem
    refine ⟨by omega, fun id output => ?_⟩
    obtain ⟨metadata, hmetadata⟩ := Option.isSome_iff_exists.mp (known id output).1
    exact (signalIndex_spec hmetadata).1
  · intro s
    have faithful : Faithful isValid tables s _ := faithful_after wellFormed calls
    have htables : s.tables = tables := faithful.tables_eq
    have valid : s.validTables = true := faithful.valid
    clear faithful
    clear_value s
    subst htables
    refine ⟨fun call => ⟨completeLists_step wellFormed valid call, ?_, ?_⟩, ?_⟩
    · have alone := ProfileState.alike_step isValid (fun i => (s.signals i, s.signals i))
        ⟨rfl, fun _ _ => rfl, fun _ _ => rfl⟩ call
      have kept := ProfileState.tables_of_profile (ProfileState.profile_step isValid s call)
      exact fun i hi => congrArg Prod.fst (alone.1.outer i (kept ▸ hi))
    · intro s' profile slots
      have alike := ProfileState.alike_step isValid (fun i => (s.signals i, s'.signals i))
        ⟨profile, slots, fun _ _ => rfl⟩ call
      have kept := ProfileState.tables_of_profile (ProfileState.profile_step isValid s call)
      exact ⟨alike.2, fun i hi => alike.1.slots i (kept ▸ hi)⟩
    · intro frame nowUs id known
      refine ⟨fun elsewhere => ?_, fun entry hentry inexact => ?_⟩
      · have same := process_elsewhere isValid nowUs wellFormed valid known
          elsewhere
        refine ⟨same, ?_⟩
        have served := ProfileState.tables_of_profile
          (ProfileState.profile_step isValid s (.service nowUs))
        rw [ProfileState.step] at served
        rw [same]
        unfold ProfileState.signal
        rw [served]
        exact ProfileState.service_signal _
      · obtain ⟨kept, unavailable⟩ := process_inexact isValid nowUs
          wellFormed valid known hentry inexact
        exact ⟨kept, fun output older _ _ => read_invalid (unavailable output older)⟩

/-- A profile of two lamps, each of them alone in its message. The decoder of the second reports
the first. -/
def crossedProfile : ProfileTables where
  catalog :=
    [{ id := ⟨1⟩, key := [0x61], capabilities := { read := true } },
      { id := ⟨2⟩, key := [0x62], capabilities := { read := true } }]
  freshnessPolicies :=
    [{ id := ⟨1⟩, declared := true, timeoutMs := 1 }, { id := ⟨2⟩ }]
  dispatch :=
    [{ identifier := 0x201
       decode := fun _ _ => (Vector.replicate _ { id := ⟨1⟩, valid := true }, 1)
       outputIds := [⟨1⟩] },
      { identifier := 0x202
        decode := fun _ _ => (Vector.replicate _ { id := ⟨1⟩, valid := true }, 1)
        outputIds := [⟨2⟩] }]
  maxDecodeResults := 1

/-- The second lamp reads unavailable after its first message. -/
theorem checked_tables_run_safely_crossed :
    tableWellFormed crossedProfile ∧
    let s : ProfileState := .create crossedProfile true
    ∀ readUs reading, (s.process (fun _ => true) { identifier := 0x202, timestampUs := 5 } 5).1.read
      ⟨2⟩ readUs = .ok reading → reading.availability = .unavailable := by
  have wellFormed : tableWellFormed crossedProfile := by decide
  refine ⟨wellFormed, ?_⟩
  have runs := (checked_tables_run_safely (fun _ => true) crossedProfile wellFormed).2.2 []
  have second := runs.2 { identifier := 0x202, timestampUs := 5 } 5 ⟨2⟩ (by decide)
  refine (second.2 _ rfl ?_).2 (by decide) (by decide)
  intro exact_results
  exact absurd exact_results.2 (by decide)

/-- A frame of the second lamp reports the expiry of the first. -/
theorem frame_reports_other_expiry :
    ¬∀ (tables : ProfileTables) (calls : List ProviderCall) (frame : RawCanFrame) (nowUs : ℕ)
      (entry : DispatchEntry) (id : SignalId), tableWellFormed tables →
      let s := Machine.after (ProfileState.step fun _ => true) (.create tables true) calls
      findDispatch tables frame.identifier = some entry → id ∉ entry.outputIds →
        (s.process (fun _ => true) frame nowUs).1.signal id = s.signal id := by
  intro unmoved
  have same := unmoved crossedProfile [.process { identifier := 0x201, timestampUs := 5 } 5]
    { identifier := 0x202, timestampUs := 2000 } 2000 _ ⟨1⟩ (by decide) rfl (by decide)
  revert same
  decide

end AccessoryController.ProfileRuntime
