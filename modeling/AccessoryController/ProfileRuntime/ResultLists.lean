import AccessoryController.ProfileRuntime.Freshness
import Mathlib.Data.List.Perm.Subperm

/-!
# The result lists of the provider

What each call reports. The lists have room for every signal of a checked profile, so that no call
drops one: a list names exactly the signals that expired, changed or recovered.

## Main definitions

* `ProfileState.expires`: the sample of a signal expires unreported
* `ProfileState.recovers`: a frame makes a signal usable again

## Main results

* `process_lists`, `service_lists`, `fault_lists`, `reset_lists`: the lists of each call
-/

namespace AccessoryController.ProfileRuntime

open VehicleCore VehicleSignals ProfileState SignalState

/-! ### Names and slots -/

section Catalogue

variable {tables : ProfileTables} (wellFormed : tables.catalog.wellFormed)

include wellFormed

theorem ids_nodup : (tables.catalog.map SignalMetadata.id).Nodup :=
  List.pairwise_map.mpr (wellFormed.2.imp fun apart => apart.1.symm)

/-- A well-formed catalogue finds each of its entries, in its own slot. -/
theorem find_entry {i : ℕ} {metadata : SignalMetadata}
    (there : tables.catalog[i]? = some metadata) :
    tables.catalog.find metadata.id = some metadata ∧ signalIndex tables metadata.id = i := by
  have mem := List.mem_of_getElem? there
  have known : (tables.catalog.find metadata.id).isSome = true := by
    unfold SignalCatalogView.find
    rw [if_pos (wellFormed.1 metadata mem).1, List.find?_isSome]
    exact ⟨metadata, mem, by simp⟩
  obtain ⟨found, hfound⟩ := Option.isSome_iff_exists.mp known
  obtain ⟨bound, slot, same⟩ := signalIndex_spec hfound
  -- no other slot has the identifier
  have index : signalIndex tables metadata.id = i := by
    refine (List.getElem?_inj (by rwa [List.length_map]) (ids_nodup wellFormed)).mp ?_
    rw [List.getElem?_map, List.getElem?_map, slot, there, Option.map_some, Option.map_some, same]
  rw [index, there] at slot
  exact ⟨hfound.trans slot.symm, index⟩

/-- The known signals are those of the catalogue. -/
theorem known_iff {id : SignalId} : (tables.catalog.find id).isSome = true ↔
    id ∈ tables.catalog.map SignalMetadata.id := by
  constructor
  · intro known
    obtain ⟨metadata, hmetadata⟩ := Option.isSome_iff_exists.mp known
    obtain ⟨-, slot, rfl⟩ := signalIndex_spec hmetadata
    exact List.mem_map_of_mem (List.mem_of_getElem? slot)
  · intro mem
    obtain ⟨metadata, listed, rfl⟩ := List.mem_map.mp mem
    obtain ⟨i, there⟩ := List.mem_iff_getElem?.mp listed
    rw [(find_entry wellFormed there).1]
    rfl

end Catalogue

theorem appendUnique_eq {values : List SignalId} {id : SignalId} (apart : id ∉ values)
    (room : values.length < kMaxRuntimeSignals) : appendUnique values id = values ++ [id] := by
  unfold appendUnique
  rw [if_neg apart, if_pos room]

/-! ### What is due -/

/-- The sample of a signal is past its deadline, and this was not reported yet. -/
def ProfileState.expires (s : ProfileState) (nowUs : MonotonicTimestamp) (id : SignalId) : Bool :=
  (freshnessFor s.tables id).any fun policy => (s.signal id).due policy nowUs

/-- The slot of a signal once its expiry is reported. -/
def SignalState.reported (policy : Option SignalFreshnessPolicy) (nowUs : MonotonicTimestamp)
    (sample : SignalState) : SignalState :=
  if policy.any fun policy => sample.due policy nowUs then { sample with dueReported := true }
  else sample

/-- The report does not decide whether a signal is unusable. -/
theorem SignalState.unusable_reported (policy : Option SignalFreshnessPolicy)
    (nowUs : MonotonicTimestamp) (sample : SignalState) :
    (sample.reported policy nowUs).unusable policy nowUs = sample.unusable policy nowUs := by
  unfold reported
  split
  next expired =>
    cases policy with
    | none => cases expired
    | some policy =>
      rw [Option.any_some] at expired
      unfold due at expired
      simp only [Bool.and_eq_true, Bool.not_eq_true', decide_eq_true_eq] at expired
      obtain ⟨⟨⟨⟨declared, hasValue⟩, valid⟩, -⟩, late⟩ := expired
      simp [unusable, availabilityAt, declared, hasValue, valid, late]
  next => rfl

section Service

variable (s : ProfileState) (nowUs : MonotonicTimestamp)

theorem serviceSignal_eq (result : ProviderProcessResult) {index : ℕ} {metadata : SignalMetadata}
    (there : s.tables.catalog[index]? = some metadata) :
    s.serviceSignal nowUs result index =
      let policy := freshnessFor s.tables metadata.id
      (s.setSignal index ((s.signals index).reported policy nowUs),
        if policy.any fun policy => (s.signals index).due policy nowUs then
          { result with due := appendUnique result.due metadata.id }
        else result) := by
  unfold serviceSignal reported
  rw [there]
  dsimp only
  cases freshnessFor s.tables metadata.id with
  | none =>
    unfold setSignal
    simp
  | some policy =>
    cases hdue : (s.signals index).due policy nowUs with
    | false =>
      unfold setSignal
      simp [hdue]
    | true => simp [hdue]

end Service

/-! ### Loops over the catalogue -/

/-- A loop whose iterations report nothing but changes reports nothing but changes. -/
theorem changed_foldl {X : Type}
    {f : ProfileState × ProviderProcessResult → X → ProfileState × ProviderProcessResult}
    {l : List X} (start : ProfileState × ProviderProcessResult)
    (only : ∀ state x, ∃ changed, (f state x).2 = { state.2 with changed }) :
    ∃ changed, (l.foldl f start).2 = { start.2 with changed } := by
  refine List.foldlRecOn (motive := fun state : ProfileState × ProviderProcessResult =>
    ∃ changed, state.2 = { start.2 with changed }) _ _ ⟨start.2.changed, rfl⟩ ?_
  rintro state ⟨changed, same⟩ x -
  obtain ⟨changed', step⟩ := only state x
  rw [step, same]
  exact ⟨changed', rfl⟩

/-- **A loop over the catalogue** reports the signals that it finds to meet a condition, in the
catalogue's order. -/
theorem reports_catalogLoop (start : ProfileState × ProviderProcessResult)
    {f : ProfileState × ProviderProcessResult → ℕ → ProfileState × ProviderProcessResult}
    (small : start.1.tables.catalog.length ≤ kMaxRuntimeSignals)
    (wellFormed : start.1.tables.catalog.wellFormed)
    (out : ProviderProcessResult → List SignalId) (reports : SignalId → SignalState → Bool)
    (profile : ∀ state i, (f state i).1.profile = state.1.profile)
    (frame : ∀ state i k, k ≠ i → (f state i).1.signals k = state.1.signals k)
    (report : ∀ state i metadata, state.1.tables = start.1.tables →
      start.1.tables.catalog[i]? = some metadata →
      out (f state i).2 = if reports metadata.id (state.1.signals i) then
        appendUnique (out state.2) metadata.id else out state.2)
    (empty : out start.2 = []) :
    out ((List.range start.1.tables.catalog.length).foldl f start).2 =
      (start.1.tables.catalog.map SignalMetadata.id).filter fun id =>
        reports id (start.1.signal id) := by
  -- the loop over the indices is one over the entries with their indices
  set catalog := start.1.tables.catalog with hcatalog
  have indices : List.range catalog.length = catalog.zipIdx.map Prod.snd := by
    rw [List.zipIdx_map_snd, List.range_eq_range']
  have entry : ∀ x ∈ catalog.zipIdx, catalog[x.2]? = some x.1 := fun x mem =>
    List.mem_zipIdx_iff_getElem?.mp mem
  have names : (catalog.zipIdx.map fun x => x.1.id) = catalog.map SignalMetadata.id := by
    calc catalog.zipIdx.map (fun x => x.1.id)
        = (catalog.zipIdx.map Prod.fst).map SignalMetadata.id := List.map_map.symm
      _ = catalog.map SignalMetadata.id := by rw [List.zipIdx_map_fst]
  have filled := Pointwise.foldl_reports
    (I := fun state : ProfileState × ProviderProcessResult => state.1.tables = start.1.tables)
    (fun state => state.1.signals) (fun x : SignalMetadata × ℕ => x.2) (fun state => out state.2)
    (fun x => x.1.id) (fun x sample => reports x.1.id sample) kMaxRuntimeSignals
    (f := fun state x => f state x.2) (l := catalog.zipIdx)
    (fun state x _ same => (tables_of_profile (profile state x.2)).trans same)
    (fun state x _ _ k => frame state x.2 k) ?_ ?_ ?_ (s := start) rfl ?_ ?_
  · rw [indices, List.foldl_map, filled, empty, List.nil_append, ← names, List.filter_map]
    refine congrArg _ (List.filter_congr fun x mem => ?_)
    unfold signal
    rw [Function.comp_apply, (find_entry wellFormed (entry x mem)).2]
  · intro state x mem same apart room
    rw [report state x.2 x.1 same (entry x mem)]
    split
    · exact appendUnique_eq apart room
    · rfl
  · rw [← indices]
    exact List.nodup_range
  · rw [names]
    exact ids_nodup wellFormed
  · intro x _
    rw [empty]
    exact List.not_mem_nil
  · rw [empty, List.length_zipIdx]
    exact (Nat.zero_add _).trans_le small

/-! ### Service, fault and reset -/

section CatalogueCalls

variable {s : ProfileState} (nowUs : MonotonicTimestamp)

theorem SignalState.invalid_reported (policy : Option SignalFreshnessPolicy)
    (sample : SignalState) : (sample.reported policy nowUs).invalid = sample.invalid := by
  unfold reported
  split <;> rfl

theorem SignalState.updateWatermark_reported (policy : Option SignalFreshnessPolicy)
    (sample : SignalState) (timestampUs : MonotonicTimestamp) :
    ((sample.reported policy nowUs).updateWatermark timestampUs).isSome =
      (sample.updateWatermark timestampUs).isSome := by
  unfold reported updateWatermark
  split
  · dsimp only
    split <;> rfl
  · rfl

/-- The policy of a slot. -/
def ProfileState.slotPolicy (s : ProfileState) (i : ℕ) : Option SignalFreshnessPolicy :=
  s.tables.catalog[i]?.bind fun metadata => freshnessFor s.tables metadata.id

theorem ProfileState.slotPolicy_signalIndex (s : ProfileState) {id : SignalId}
    (known : (s.tables.catalog.find id).isSome = true) :
    s.slotPolicy (signalIndex s.tables id) = freshnessFor s.tables id := by
  obtain ⟨metadata, hmetadata⟩ := Option.isSome_iff_exists.mp known
  obtain ⟨-, slot, same⟩ := signalIndex_spec hmetadata
  unfold slotPolicy
  rw [slot, ← same]
  rfl

/-- Every slot of the catalogue is reported if it expired; no other slot is touched. -/
theorem serviceDueLocked_signals (result : ProviderProcessResult) (i : ℕ) :
    (s.serviceDueLocked nowUs result).1.signals i =
      (s.signals i).reported (s.slotPolicy i) nowUs := by
  have nodup : ((List.range s.tables.catalog.length).map id).Nodup := by
    simpa using List.nodup_range
  have entry : ∀ k ∈ List.range s.tables.catalog.length,
      ∃ metadata, s.tables.catalog[k]? = some metadata := fun k mem =>
    ⟨_, List.getElem?_eq_getElem (List.mem_range.mp mem)⟩
  unfold serviceDueLocked
  rw [Pointwise.foldl (I := fun state : ProfileState × ProviderProcessResult =>
      state.1.tables = s.tables)
    (fun state : ProfileState × ProviderProcessResult => state.1.signals) id
    (fun k sample => sample.reported (s.slotPolicy k) nowUs) ?_ ?_ ?_ nodup rfl i]
  · by_cases hi : i < s.tables.catalog.length
    · have found : ((List.range s.tables.catalog.length).find? fun k => id k = i) = some i := by
        rw [List.find?_range_eq_some]
        simpa using ⟨hi, fun k hk => Nat.ne_of_lt hk⟩
      rw [found]
      rfl
    · have missing : ((List.range s.tables.catalog.length).find? fun k => id k = i) = none := by
        rw [List.find?_range_eq_none]
        intro k hk
        simp only [id_eq, Bool.not_eq_true', decide_eq_false_iff_not]
        omega
      have unknown : s.slotPolicy i = none := by
        unfold slotPolicy
        rw [List.getElem?_eq_none (Nat.not_lt.mp hi)]
        rfl
      rw [missing, unknown]
      rfl
  · intro state k _ same
    exact (tables_of_profile (profile_serviceSignal _ _ _ _)).trans same
  · intro state k mem same
    obtain ⟨metadata, there⟩ := entry k mem
    have policy : s.slotPolicy k = freshnessFor s.tables metadata.id := by
      unfold slotPolicy
      rw [there]
      rfl
    rw [serviceSignal_eq state.1 nowUs state.2 (same ▸ there), same, policy]
    exact Function.update_self ..
  · intro state k mem same j hj
    obtain ⟨metadata, there⟩ := entry k mem
    rw [serviceSignal_eq state.1 nowUs state.2 (same ▸ there)]
    exact Function.update_of_ne hj ..

/-- A service reports nothing but what is due. -/
theorem serviceDueLocked_result (result : ProviderProcessResult) :
    ∃ due, (s.serviceDueLocked nowUs result).2 = { result with due } := by
  refine List.foldlRecOn (motive := fun state : ProfileState × ProviderProcessResult =>
    ∃ due, state.2 = { result with due }) _ _ ⟨result.due, rfl⟩ ?_
  rintro state ⟨due, same⟩ index -
  unfold serviceSignal
  split
  · exact ⟨due, same⟩
  split
  · exact ⟨due, same⟩
  split
  · exact ⟨due, same⟩
  · rw [same]
    exact ⟨_, rfl⟩

variable (small : s.tables.catalog.length ≤ kMaxRuntimeSignals)
  (wellFormed : s.tables.catalog.wellFormed)

include small wellFormed

/-- **What is due** is every signal whose sample expires, in the catalogue's order. -/
theorem serviceDueLocked_due : (s.serviceDueLocked nowUs {}).2.due =
    (s.tables.catalog.map SignalMetadata.id).filter (s.expires nowUs) := by
  exact reports_catalogLoop (s, {}) small wellFormed ProviderProcessResult.due
    (fun id sample => (freshnessFor s.tables id).any fun policy => sample.due policy nowUs)
    (fun state i => profile_serviceSignal _ _ _ _)
    (fun state i k hk => by
      unfold serviceSignal
      split
      · rfl
      split
      · rfl
      split
      · rfl
      · exact Function.update_of_ne hk ..)
    (fun state i metadata same there => by
      rw [serviceSignal_eq state.1 nowUs state.2 (same ▸ there), same]
      dsimp only
      split <;> rfl)
    rfl

/-- What a service reports. -/
theorem service_lists (valid : s.validTables = true) :
    (s.service nowUs).2 =
      { due := (s.tables.catalog.map SignalMetadata.id).filter (s.expires nowUs) } := by
  unfold service
  rw [valid]
  obtain ⟨due, result⟩ := serviceDueLocked_result (s := s) nowUs {}
  have all := serviceDueLocked_due nowUs small wellFormed
  rw [result] at all
  change (s.serviceDueLocked nowUs {}).2 = _
  rw [result, ← all]

/-- What a fault reports: every signal that was not unavailable already. -/
theorem fault_lists (valid : s.validTables = true) :
    (s.fault nowUs).2 =
      { status := .faulted
        changed := (s.tables.catalog.map SignalMetadata.id).filter fun id => !(s.signal id).invalid
        due := (s.tables.catalog.map SignalMetadata.id).filter (s.expires nowUs) } := by
  obtain ⟨due, result⟩ := serviceDueLocked_result (s := s) nowUs {}
  have all := serviceDueLocked_due nowUs small wellFormed
  have signals := serviceDueLocked_signals (s := s) nowUs {}
  have tables := tables_of_profile (s.serviceDueLocked_spec nowUs {}).1
  unfold fault
  rw [valid, Bool.not_true, if_neg Bool.false_ne_true, ← tables]
  generalize s.serviceDueLocked nowUs {} = start at *
  have changed := reports_catalogLoop start (tables ▸ small) (tables ▸ wellFormed)
    ProviderProcessResult.changed (fun _ sample => !sample.invalid)
    (profile_faultSignal nowUs)
    (fun state i k hk => by
      unfold faultSignal
      dsimp only
      split
      · rfl
      · exact Function.update_of_ne hk ..)
    (fun state i metadata same there => by
      unfold faultSignal
      dsimp only
      rw [same, there]
      cases (state.1.signals i).invalid <;> rfl)
    (by rw [result])
  obtain ⟨filled, only⟩ := changed_foldl (f := faultSignal nowUs)
    (l := List.range start.1.tables.catalog.length) start fun state i => by
      unfold faultSignal
      dsimp only
      split
      · exact ⟨_, rfl⟩
      · dsimp only
        split <;> exact ⟨_, rfl⟩
  rw [only, result] at changed
  dsimp only at changed
  have marks : ∀ id, (start.1.signal id).invalid = (s.signal id).invalid := by
    intro id
    unfold signal
    rw [signals, invalid_reported, tables]
  rw [result] at all
  dsimp only at all
  change { (List.foldl _ start _).2 with status := .faulted } = _
  rw [only, result, changed, all, tables]
  simp only [marks]

/-- What a reset reports: every signal. -/
theorem reset_lists (valid : s.validTables = true) :
    (s.reset nowUs).2 =
      { status := .applied, changed := s.tables.catalog.map SignalMetadata.id } := by
  unfold reset
  rw [valid, Bool.not_true, if_neg Bool.false_ne_true]
  have changed := reports_catalogLoop (s, {}) small wellFormed
    ProviderProcessResult.changed (fun _ _ => true) (profile_resetSignal nowUs)
    (fun state i k hk => by
      unfold resetSignal
      dsimp only
      split
      · rfl
      · exact Function.update_of_ne hk ..)
    (fun state i metadata same there => by
      unfold resetSignal
      dsimp only
      rw [same, there]
      rfl)
    rfl
  obtain ⟨filled, only⟩ := changed_foldl (f := resetSignal nowUs)
    (l := List.range s.tables.catalog.length) (s, {}) fun state i => by
      unfold resetSignal
      dsimp only
      split <;> exact ⟨_, rfl⟩
  rw [only, List.filter_true] at changed
  dsimp only at changed
  change { (List.foldl (resetSignal nowUs) (s, {}) _).2 with status := .applied } = _
  rw [only, changed]

end CatalogueCalls

/-! ### Frames -/

/-- A decode reaches the slot of its signal and makes it usable again. -/
def SignalState.recoversAt (policy : Option SignalFreshnessPolicy)
    (timestampUs nowUs : MonotonicTimestamp) (decode : Option SignalValue)
    (sample : SignalState) : Bool :=
  decode.isSome && (sample.updateWatermark timestampUs).isSome && sample.unusable policy nowUs &&
    policy.any fun policy => !(policy.declared &&
      decide (freshnessDeadline timestampUs policy < nowUs))

/-- A frame makes a signal usable again. -/
def ProfileState.recovers (isValid : RawCanFrame → Bool) (s : ProfileState) (frame : RawCanFrame)
    (nowUs : MonotonicTimestamp) (id : SignalId) : Bool :=
  (s.signal id).recoversAt (freshnessFor s.tables id) frame.timestampUs nowUs
    (decodeOf isValid s.tables frame id).join

section Deliveries

variable {s : ProfileState} {id : SignalId} {result : ProviderProcessResult}
  {timestampUs nowUs : MonotonicTimestamp} {metadata : SignalMetadata} {decoded : DecodeResult}

theorem markInvalid_result (small : s.tables.catalog.length ≤ kMaxRuntimeSignals)
    (known : (s.tables.catalog.find id).isSome = true) :
    (s.markInvalid id timestampUs result).2 =
      if ((s.signal id).updateWatermark timestampUs).isSome then
        { result with changed := appendUnique result.changed id }
      else result := by
  unfold markInvalid signal
  rw [if_neg (signalIndex_in_bounds small known)]
  cases (s.signals (signalIndex s.tables id)).updateWatermark timestampUs <;> rfl

theorem commitValid_result (small : s.tables.catalog.length ≤ kMaxRuntimeSignals)
    (known : (s.tables.catalog.find metadata.id).isSome = true) :
    (s.commitValid metadata decoded timestampUs nowUs result).2 =
      if ((s.signal metadata.id).updateWatermark timestampUs).isSome then
        { result with
          changed := appendUnique result.changed metadata.id
          recovered := if (s.signal metadata.id).recoversAt (freshnessFor s.tables metadata.id)
              timestampUs nowUs (some decoded.value) then
            appendUnique result.recovered metadata.id else result.recovered }
      else result := by
  unfold commitValid
  rw [if_neg (signalIndex_in_bounds small known)]
  rw [show s.signals (signalIndex s.tables metadata.id) = s.signal metadata.id from rfl]
  cases hraised : (s.signal metadata.id).updateWatermark timestampUs with
  | none => rfl
  | some raised =>
    have raise : raised = { s.signal metadata.id with
        watermarkUs := timestampUs, hasWatermark := true } := by
      unfold updateWatermark at hraised
      split at hraised
      · cases hraised
      · exact (Option.some.inj hraised).symm
    have again : (raised.unusable (freshnessFor s.tables metadata.id) nowUs &&
        (freshnessFor s.tables metadata.id).any fun policy => ({ raised with
          value := decoded.value
          sampleTimestampUs := timestampUs
          hasValue := true
          invalid := false
          dueReported := false } : SignalState).availabilityAt policy nowUs != .stale) =
        (s.signal metadata.id).recoversAt (freshnessFor s.tables metadata.id) timestampUs nowUs
          (some decoded.value) := by
      unfold recoversAt
      rw [hraised, raise]
      cases freshnessFor s.tables metadata.id with
      | none => simp
      | some policy =>
        have unusable : ({ s.signal metadata.id with
            watermarkUs := timestampUs, hasWatermark := true } : SignalState).unusable (some policy)
              nowUs = (s.signal metadata.id).unusable (some policy) nowUs := rfl
        rw [unusable]
        cases declared : policy.declared with
        | false => simp [availabilityAt, declared]
        | true =>
          by_cases late : freshnessDeadline timestampUs policy < nowUs <;>
            simp [availabilityAt, declared, late]
    dsimp only
    rw [again]
    rfl

/-- What the result of a decoder reports of a signal that the provider knows. -/
theorem commitResult_result (frame : RawCanFrame) (nowUs : MonotonicTimestamp)
    (decoded : DecodeResult) (state : (ProfileState × ProviderProcessResult) × Bool)
    (small : state.1.1.tables.catalog.length ≤ kMaxRuntimeSignals)
    (known : (state.1.1.tables.catalog.find decoded.id).isSome = true) :
    (commitResult frame nowUs state decoded).1.2 =
      if ((state.1.1.signal decoded.id).updateWatermark frame.timestampUs).isSome then
        { state.1.2 with
          changed := appendUnique state.1.2.changed decoded.id
          recovered := if (state.1.1.signal decoded.id).recoversAt
              (freshnessFor state.1.1.tables decoded.id) frame.timestampUs nowUs
              (verdict state.1.1.tables decoded) then
            appendUnique state.1.2.recovered decoded.id else state.1.2.recovered }
      else state.1.2 := by
  obtain ⟨⟨s, result⟩, invalidResult⟩ := state
  obtain ⟨metadata, hmetadata⟩ := Option.isSome_iff_exists.mp known
  have same : metadata.id = decoded.id := (signalIndex_spec hmetadata).2.2
  have marked : (s.markInvalid decoded.id frame.timestampUs result).2 =
      if ((s.signal decoded.id).updateWatermark frame.timestampUs).isSome then
        { result with
          changed := appendUnique result.changed decoded.id
          recovered := if (s.signal decoded.id).recoversAt (freshnessFor s.tables decoded.id)
              frame.timestampUs nowUs none then
            appendUnique result.recovered decoded.id else result.recovered }
      else result := markInvalid_result small known
  unfold commitResult verdict
  simp only [hmetadata]
  cases haccepted : acceptedResult metadata decoded with
  | false =>
    exact marked
  | true =>
    cases hvalid : decoded.valid with
    | false =>
      exact marked
    | true =>
      rw [← same]
      exact commitValid_result small (same ▸ known)

end Deliveries

/-- A loop of deliveries to known, distinct signals reports those that it finds to meet a
condition. -/
theorem reports_deliveries {S X : Type} (view : S → ProfileState) (out : S → List SignalId)
    (key : X → SignalId) (reports : X → SignalState → Bool) {f : S → X → S} {l : List X}
    (start : S) (small : (view start).tables.catalog.length ≤ kMaxRuntimeSignals)
    (wellFormed : (view start).tables.catalog.wellFormed)
    (known : ∀ x ∈ l, ((view start).tables.catalog.find (key x)).isSome = true)
    (nodup : (l.map key).Nodup)
    (profile : ∀ st x, (view (f st x)).profile = (view st).profile)
    (frame : ∀ st, ∀ x ∈ l, (view st).tables = (view start).tables →
      ∀ i, i ≠ signalIndex (view start).tables (key x) →
        (view (f st x)).signals i = (view st).signals i)
    (report : ∀ st, ∀ x ∈ l, (view st).tables = (view start).tables →
      out (f st x) = if reports x ((view st).signal (key x)) then appendUnique (out st) (key x)
        else out st)
    (empty : out start = []) :
    out (l.foldl f start) =
      (l.filter fun x => reports x ((view start).signal (key x))).map key := by
  have few : l.length ≤ kMaxRuntimeSignals := by
    have subset : l.map key ⊆ (view start).tables.catalog.map SignalMetadata.id := by
      intro id mem
      obtain ⟨x, hx, rfl⟩ := List.mem_map.mp mem
      exact (known_iff wellFormed).mp (known x hx)
    have := (nodup.subperm subset).length_le
    rw [List.length_map, List.length_map] at this
    exact this.trans small
  rw [Pointwise.foldl_reports (I := fun st => (view st).tables = (view start).tables)
    (fun st => (view st).signals) (fun x => signalIndex (view start).tables (key x)) out key reports
    kMaxRuntimeSignals
    (fun st x _ same => (tables_of_profile (profile st x)).trans same) frame ?_
    (slots_nodup known nodup) nodup rfl ?_ ?_, empty, List.nil_append]
  · rfl
  · intro st x hx same apart room
    rw [report st x hx same, appendUnique_eq apart room]
    unfold signal
    rw [same]
  · intro x _
    rw [empty]
    exact List.not_mem_nil
  · rw [empty]
    exact (Nat.zero_add _).trans_le few

section Process

variable {s : ProfileState}

/-- Marking the outputs of an entry reports those whose watermark is older than the frame. -/
theorem markOutputs_result (entry : DispatchEntry) (result : ProviderProcessResult)
    (timestampUs : MonotonicTimestamp) (small : s.tables.catalog.length ≤ kMaxRuntimeSignals)
    (wellFormed : s.tables.catalog.wellFormed)
    (known : ∀ output ∈ entry.outputIds, (s.tables.catalog.find output).isSome = true)
    (nodup : entry.outputIds.Nodup) (empty : result.changed = []) :
    (s.markOutputs entry timestampUs result).2 =
      { result with
        changed := entry.outputIds.filter fun id =>
          ((s.signal id).updateWatermark timestampUs).isSome } := by
  unfold markOutputs
  have changed := reports_deliveries Prod.fst (fun st => st.2.changed) (fun output => output)
    (fun _ sample => (sample.updateWatermark timestampUs).isSome)
    (f := fun st output => st.1.markInvalid output timestampUs st.2) (l := entry.outputIds)
    (s, result) small wellFormed known (by simpa using nodup)
    (fun st x => profile_markInvalid)
    (fun st x hx same i hi => by
      have same : st.1.tables = s.tables := same
      rw [signals_markInvalid (same ▸ small) (same ▸ known x hx), same]
      exact Function.update_of_ne hi ..)
    (fun st x hx same => by
      have same : st.1.tables = s.tables := same
      rw [markInvalid_result (same ▸ small) (same ▸ known x hx)]
      split <;> rfl)
    empty
  obtain ⟨filled, only⟩ := changed_foldl
    (f := fun st output => st.1.markInvalid output timestampUs st.2) (l := entry.outputIds)
    (s, result) fun st output => by
      unfold markInvalid
      dsimp only
      split
      · exact ⟨_, rfl⟩
      · split <;> exact ⟨_, rfl⟩
  rw [only] at changed ⊢
  dsimp only at changed
  rw [changed, List.map_id']

/-- Taking a well-formed list reports the signals whose watermark is older than the frame, and those
of them that recover. -/
theorem commitResults_result (frame : RawCanFrame) (nowUs : MonotonicTimestamp)
    (results : List DecodeResult) (start : (ProfileState × ProviderProcessResult) × Bool)
    (small : start.1.1.tables.catalog.length ≤ kMaxRuntimeSignals)
    (wellFormed : start.1.1.tables.catalog.wellFormed)
    (known : ∀ decoded ∈ results, (start.1.1.tables.catalog.find decoded.id).isSome = true)
    (nodup : (results.map DecodeResult.id).Nodup) (empty : start.1.2.changed = [])
    (none_yet : start.1.2.recovered = []) :
    let final := (results.foldl (commitResult frame nowUs) start).1.2
    final.due = start.1.2.due ∧
      final.changed = (results.filter fun decoded =>
        ((start.1.1.signal decoded.id).updateWatermark frame.timestampUs).isSome).map
          DecodeResult.id ∧
      final.recovered = (results.filter fun decoded => (start.1.1.signal decoded.id).recoversAt
        (freshnessFor start.1.1.tables decoded.id) frame.timestampUs nowUs
        (verdict start.1.1.tables decoded)).map DecodeResult.id := by
  have frames : ∀ st : (ProfileState × ProviderProcessResult) × Bool, ∀ decoded ∈ results,
      st.1.1.tables = start.1.1.tables → ∀ i, i ≠ signalIndex start.1.1.tables decoded.id →
        (commitResult frame nowUs st decoded).1.1.signals i = st.1.1.signals i := by
    intro st decoded mem same i hi
    rw [signals_commitResult st decoded (same ▸ small) (same ▸ known decoded mem),
      same]
    exact Function.update_of_ne hi ..
  have step : ∀ st : (ProfileState × ProviderProcessResult) × Bool, ∀ decoded ∈ results,
      st.1.1.tables = start.1.1.tables → _ := fun st decoded mem same =>
    commitResult_result frame nowUs decoded st (same ▸ small)
      (same ▸ known decoded mem)
  refine ⟨?_, ?_, ?_⟩
  · refine (List.foldlRecOn (motive := fun st : (ProfileState × ProviderProcessResult) × Bool =>
      st.1.1.tables = start.1.1.tables ∧ st.1.2.due = start.1.2.due) _ _ ⟨rfl, rfl⟩ ?_).2
    rintro st ⟨same, due⟩ decoded mem
    refine ⟨(tables_of_profile (profile_commitResult st decoded)).trans
      same, ?_⟩
    rw [step st decoded mem same]
    split <;> exact due
  · exact reports_deliveries (fun st => st.1.1) (fun st => st.1.2.changed) DecodeResult.id
      (fun _ sample => (sample.updateWatermark frame.timestampUs).isSome) start small wellFormed
      known nodup (fun st decoded => profile_commitResult st decoded) frames
      (fun st decoded mem same => by
        rw [step st decoded mem same]
        split <;> rfl)
      empty
  · exact reports_deliveries (fun st => st.1.1) (fun st => st.1.2.recovered) DecodeResult.id
      (fun decoded sample => sample.recoversAt (freshnessFor start.1.1.tables decoded.id)
        frame.timestampUs nowUs (verdict start.1.1.tables decoded)) start small wellFormed known
      nodup (fun st decoded => profile_commitResult st decoded) frames
      (fun st decoded mem same => by
        have same : st.1.1.tables = start.1.1.tables := same
        rw [step st decoded mem same, same]
        split
        · rfl
        next late =>
          -- a signal that does not take the frame does not recover
          unfold recoversAt
          simp [late])
      none_yet

/-- Distinct results are found by their signals. -/
theorem find?_result {results : List DecodeResult} (nodup : (results.map DecodeResult.id).Nodup)
    {decoded : DecodeResult} (mem : decoded ∈ results) :
    (results.find? fun result => result.id = decoded.id) = some decoded := by
  have there : (results.find? fun result => result.id = decoded.id).isSome := by
    rw [List.find?_isSome]
    exact ⟨decoded, mem, decide_eq_true rfl⟩
  obtain ⟨found, hfound⟩ := Option.isSome_iff_exists.mp there
  have same : found.id = decoded.id := by simpa using List.find?_some hfound
  rw [hfound, List.inj_on_of_nodup_map nodup (List.mem_of_find?_eq_some hfound) mem same]

/-- **What a frame reports**: every signal that expired, every signal that takes its decode, and
every one of them that becomes usable again. -/
theorem process_lists (isValid : RawCanFrame → Bool) (frame : RawCanFrame)
    (nowUs : MonotonicTimestamp) (wellFormed : tableWellFormed s.tables)
    (valid : s.validTables = true) :
    let r := (s.process isValid frame nowUs).2
    r.due = (s.tables.catalog.map SignalMetadata.id).filter (s.expires nowUs) ∧
      ((∀ id, id ∈ r.changed ↔ accepts isValid s frame id = true) ∧ r.changed.Nodup) ∧
      (∀ id, id ∈ r.recovered ↔ s.recovers isValid frame nowUs id = true) ∧
      r.recovered.Nodup := by
  obtain ⟨small, catalogue, -, -, -, -, -, -, -, entries, -⟩ := wellFormed
  obtain ⟨due, result⟩ := serviceDueLocked_result (s := s) nowUs {}
  have all := serviceDueLocked_due nowUs small catalogue
  have slots := serviceDueLocked_signals (s := s) nowUs {}
  have tables := tables_of_profile (s.serviceDueLocked_spec nowUs {}).1
  unfold process
  rw [valid, Bool.not_true, if_neg Bool.false_ne_true]
  generalize s.serviceDueLocked nowUs {} = start at *
  obtain ⟨s₁, served⟩ := start
  dsimp only at result all slots tables ⊢
  rw [result] at all
  rw [result, tables]
  -- the service changes neither what a slot takes nor what recovers it
  have takes : ∀ id timestampUs, ((s₁.signal id).updateWatermark timestampUs).isSome =
      ((s.signal id).updateWatermark timestampUs).isSome := by
    intro id timestampUs
    unfold signal
    rw [tables, slots, updateWatermark_reported]
  have again : ∀ id decode, (s.tables.catalog.find id).isSome = true →
      (s₁.signal id).recoversAt (freshnessFor s.tables id) frame.timestampUs nowUs decode =
        (s.signal id).recoversAt (freshnessFor s.tables id) frame.timestampUs nowUs decode := by
    intro id decode known
    unfold recoversAt
    rw [takes]
    unfold signal
    rw [tables, slots, s.slotPolicy_signalIndex known, unusable_reported]
  cases hentry : findDispatch s.tables frame.identifier with
  | none =>
    have silent : ∀ id, decodeOf isValid s.tables frame id = none := by
      intro id
      unfold decodeOf
      rw [hentry]
    refine ⟨all, ⟨fun id => ?_, List.nodup_nil⟩, fun id => ?_, List.nodup_nil⟩
    · simp [accepts, silent]
    · simp [recovers, recoversAt, silent]
  | some entry =>
    obtain ⟨-, -, -, -, hknown, houtputs⟩ := entries entry (List.mem_of_find?_eq_some hentry)
    have known : ∀ output ∈ entry.outputIds, (s.tables.catalog.find output).isSome = true :=
      fun output ho => (hknown output ho).1
    have marked := markOutputs_result (s := s₁) entry { due } frame.timestampUs
      (tables ▸ small) (tables ▸ catalogue) (tables ▸ known)
      houtputs rfl
    -- a frame that says nothing usable marks the outputs of its entry
    have marks : ∀ status, (∀ id, decodeOf isValid s.tables frame id =
          if id ∈ entry.outputIds then some none else none) →
        let r := { (s₁.markOutputs entry frame.timestampUs { due }).2 with status }
        r.due = (s.tables.catalog.map SignalMetadata.id).filter (s.expires nowUs) ∧
          ((∀ id, id ∈ r.changed ↔ accepts isValid s frame id = true) ∧ r.changed.Nodup) ∧
          (∀ id, id ∈ r.recovered ↔ s.recovers isValid frame nowUs id = true) ∧
          r.recovered.Nodup := by
      intro status told
      rw [marked]
      refine ⟨all, ⟨fun id => ?_, houtputs.filter _⟩, fun id => ?_, List.nodup_nil⟩
      · unfold accepts
        rw [List.mem_filter, takes, told]
        by_cases mem : id ∈ entry.outputIds <;> simp [mem]
      · have silent : (decodeOf isValid s.tables frame id).join = none := by
          rw [told]
          split <;> rfl
        simp [recovers, recoversAt, silent]
    dsimp only
    by_cases shape : validShape isValid frame entry
    · rw [if_neg (not_not.mpr shape)]
      generalize hdecoded : entry.decoded frame s.tables.maxDecodeResults = decoded
      obtain ⟨results, resultCount⟩ := decoded
      by_cases list : s₁.resultListWellFormed entry resultCount results
      · rw [if_neg (not_not.mpr list)]
        have list' : resultListWellFormed { tables := s.tables } entry resultCount
            results := by
          unfold resultListWellFormed at list ⊢
          rwa [tables] at list
        obtain ⟨-, -, outputs, distinct⟩ := list
        have told : ∀ id, decodeOf isValid s.tables frame id =
            if id ∈ entry.outputIds then
              (results.find? fun result => result.id = id).map (verdict s.tables)
            else none := by
          intro id
          unfold decodeOf
          rw [hentry]
          dsimp only
          rw [if_neg (not_not.mpr shape), hdecoded]
          dsimp only
          rw [if_neg (not_not.mpr list')]
          split <;> simp_all
        obtain ⟨keeps, changed, recovered⟩ := commitResults_result frame nowUs results
          ((s₁, { due }), false) (tables ▸ small)
          (tables ▸ catalogue) (tables ▸ fun decoded mem => known _ (outputs decoded mem)) distinct
          rfl rfl
        generalize List.foldl _ _ results = final at keeps changed recovered ⊢
        obtain ⟨⟨s₂, r⟩, invalidResult⟩ := final
        dsimp only at keeps changed recovered ⊢
        rw [tables] at recovered
        have distinctFilter : ∀ p : DecodeResult → Bool,
            ((results.filter p).map DecodeResult.id).Nodup := fun p =>
          distinct.sublist (List.filter_sublist.map _)
        -- a result of the list is what the frame says of its signal
        have said : ∀ decoded ∈ results,
            decodeOf isValid s.tables frame decoded.id = some (verdict s.tables decoded) := by
          intro decoded mem
          rw [told, if_pos (outputs decoded mem), find?_result distinct mem]
          rfl
        have heard : ∀ id, (decodeOf isValid s.tables frame id).isSome = true →
            ∃ decoded ∈ results, decoded.id = id := by
          intro id some_said
          rw [told] at some_said
          split at some_said
          · rw [Option.isSome_map, List.find?_isSome] at some_said
            obtain ⟨decoded, mem, same⟩ := some_said
            exact ⟨decoded, mem, of_decide_eq_true same⟩
          · cases some_said
        refine ⟨keeps.trans all, ⟨fun id => ?_, ?_⟩, fun id => ?_, ?_⟩
        · rw [changed, List.mem_map]
          unfold accepts
          rw [Bool.and_eq_true]
          constructor
          · rintro ⟨decoded, mem, rfl⟩
            obtain ⟨mem, late⟩ := List.mem_filter.mp mem
            rw [said decoded mem, ← takes]
            exact ⟨rfl, late⟩
          · rintro ⟨some_said, late⟩
            obtain ⟨decoded, mem, rfl⟩ := heard id some_said
            rw [← takes] at late
            exact ⟨decoded, List.mem_filter.mpr ⟨mem, late⟩, rfl⟩
        · rw [changed]
          exact distinctFilter _
        · rw [recovered, List.mem_map]
          unfold recovers
          constructor
          · rintro ⟨decoded, mem, rfl⟩
            obtain ⟨mem, recovers⟩ := List.mem_filter.mp mem
            rw [said decoded mem, ← again _ _ (known _ (outputs decoded mem))]
            exact recovers
          · intro recovers
            have some_said : (decodeOf isValid s.tables frame id).isSome = true := by
              unfold recoversAt at recovers
              cases hsaid : decodeOf isValid s.tables frame id with
              | none => simp [hsaid] at recovers
              | some decode => rfl
            obtain ⟨decoded, mem, rfl⟩ := heard id some_said
            rw [said decoded mem, ← again _ _ (known _ (outputs decoded mem))] at recovers
            exact ⟨decoded, List.mem_filter.mpr ⟨mem, recovers⟩, rfl⟩
        · rw [recovered]
          exact distinctFilter _
      · rw [if_pos list]
        refine marks _ fun id => ?_
        have list' : ¬resultListWellFormed { tables := s.tables } entry resultCount
            results := by
          unfold resultListWellFormed at list ⊢
          rwa [tables] at list
        unfold decodeOf
        rw [hentry]
        dsimp only
        rw [if_neg (not_not.mpr shape), hdecoded]
        dsimp only
        rw [if_pos list']
        split <;> simp_all
    · rw [if_pos shape]
      refine marks _ fun id => ?_
      unfold decodeOf
      rw [hentry]
      dsimp only
      rw [if_pos shape]
      split <;> simp_all

end Process

end AccessoryController.ProfileRuntime
