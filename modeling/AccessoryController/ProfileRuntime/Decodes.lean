import Mathlib.Data.List.Find
import Mathlib.Data.List.Nodup
import AccessoryController.Library.Pointwise
import AccessoryController.ProfileRuntime.Provider

/-!
# What a frame does to one signal

A frame says something about a signal when its entry owns the signal: a value, or that there is
none. Processing a frame loops over the outputs of its entry; on a single slot the loop is one
delivery, guarded by the watermark.

## Main definitions

* `decodeOf tables frame id`: what a frame says about a signal
* `SignalState.deliver`: one decode reaching the slot of its signal
* `SignalState.core`: a slot apart from the report of its expiry

## Main results

* `process_signal`: a processed frame delivers its decode to every signal
* `fault_signal`, `reset_signal`, `service_signal`: the other calls on one slot
-/

namespace AccessoryController.ProfileRuntime

open VehicleCore VehicleSignals SignalState

/-- The value of a decoder's result, if its signal can take it. -/
def verdict (tables : ProfileTables) (result : DecodeResult) : Option SignalValue :=
  match tables.catalog.find result.id with
  | none => none
  | some metadata =>
    if acceptedResult metadata result ∧ result.valid then some result.value else none

/-- What a frame says about a signal: nothing, that its decode is invalid, or a value. -/
def decodeOf (isValid : RawCanFrame → Bool) (tables : ProfileTables) (frame : RawCanFrame)
    (id : SignalId) : Option (Option SignalValue) :=
  match findDispatch tables frame.identifier with
  | none => none
  | some entry =>
    if id ∉ entry.outputIds then none
    else if ¬ ProfileState.validShape isValid frame entry then some none
    else
      let (results, resultCount) := entry.decoded frame tables.maxDecodeResults
      if ¬ ProfileState.resultListWellFormed { tables } entry resultCount results then some none
      else (results.find? fun result => result.id = id).map (verdict tables)

namespace SignalState

/-- One decode reaching the slot of its signal: the watermark guards it. -/
def deliver (timestampUs : MonotonicTimestamp) (decode : Option (Option SignalValue))
    (sample : SignalState) : SignalState :=
  match decode, sample.updateWatermark timestampUs with
  | some none, some raised => { raised with invalid := true }
  | some (some value), some raised =>
    { raised with value, sampleTimestampUs := timestampUs, hasValue := true, invalid := false
                  dueReported := false }
  | _, _ => sample

/-- The slot apart from the report of its expiry, which no reading shows. -/
def core (sample : SignalState) : SignalState := { sample with dueReported := false }

/-- What a fault does to a slot. -/
def faulted (nowUs : MonotonicTimestamp) (sample : SignalState) : SignalState :=
  { sample.raiseWatermark nowUs with invalid := true }

/-- What a reset does to a slot. -/
def cleared (nowUs : MonotonicTimestamp) (sample : SignalState) : SignalState :=
  { watermarkUs := (sample.raiseWatermark nowUs).watermarkUs, hasWatermark := true }

theorem core_deliver {a b : SignalState} (same : a.core = b.core)
    (timestampUs : MonotonicTimestamp) (decode : Option (Option SignalValue)) :
    (a.deliver timestampUs decode).core = (b.deliver timestampUs decode).core := by
  obtain ⟨av, ats, aw, ahw, ahv, ai, ad⟩ := a
  obtain ⟨bv, bts, bw, bhw, bhv, bi, bd⟩ := b
  obtain ⟨rfl, rfl, rfl, rfl, rfl, rfl, -⟩ := mk.inj same
  rcases decode with _ | _ | value <;>
    by_cases hw : ahw = true ∧ timestampUs ≤ aw <;>
    simp [deliver, updateWatermark, core, hw]

theorem core_faulted {a b : SignalState} (same : a.core = b.core) (nowUs : MonotonicTimestamp) :
    (a.faulted nowUs).core = (b.faulted nowUs).core := by
  obtain ⟨av, ats, aw, ahw, ahv, ai, ad⟩ := a
  obtain ⟨bv, bts, bw, bhw, bhv, bi, bd⟩ := b
  obtain ⟨rfl, rfl, rfl, rfl, rfl, rfl, -⟩ := mk.inj same
  by_cases hw : ahw = false ∨ aw < nowUs <;> simp [faulted, raiseWatermark, core, hw]

end SignalState

/-! ### Slots of known signals -/

section Slots

variable {tables : ProfileTables} {id : SignalId} {metadata : SignalMetadata}

/-- The slot of a known signal is the place of its entry. -/
theorem signalIndex_spec (known : tables.catalog.find id = some metadata) :
    signalIndex tables id < tables.catalog.length ∧
      tables.catalog[signalIndex tables id]? = some metadata ∧ metadata.id = id := by
  unfold SignalCatalogView.find at known
  by_cases hvalid : id.valid
  · rw [if_pos hvalid] at known
    have hid : metadata.id = id := by simpa using List.find?_some known
    rw [List.find?_eq_bind_findIdx?_getElem?, Option.bind_eq_some_iff] at known
    obtain ⟨index, hindex, hentry⟩ := known
    have hslot : signalIndex tables id = index := by
      rw [signalIndex, if_pos hvalid, hindex, Option.getD_some]
    rw [hslot]
    exact ⟨(List.getElem?_eq_some_iff.mp hentry).1, hentry, hid⟩
  · rw [if_neg hvalid] at known
    cases known

/-- Distinct known signals have distinct slots. -/
theorem signalIndex_inj {id' : SignalId} (known : (tables.catalog.find id).isSome = true)
    (known' : (tables.catalog.find id').isSome = true)
    (same : signalIndex tables id = signalIndex tables id') : id = id' := by
  obtain ⟨m, hm⟩ := Option.isSome_iff_exists.mp known
  obtain ⟨m', hm'⟩ := Option.isSome_iff_exists.mp known'
  obtain ⟨-, hentry, hid⟩ := signalIndex_spec hm
  obtain ⟨-, hentry', hid'⟩ := signalIndex_spec hm'
  rw [same, hentry'] at hentry
  rw [← hid, ← hid', Option.some.inj hentry]

/-- The bounds checks of a known signal's slot succeed. -/
theorem signalIndex_in_bounds (small : tables.catalog.length ≤ kMaxRuntimeSignals)
    (known : (tables.catalog.find id).isSome = true) :
    ¬ (tables.catalog.length ≤ signalIndex tables id ∨
      kMaxRuntimeSignals ≤ signalIndex tables id) := by
  obtain ⟨m, hm⟩ := Option.isSome_iff_exists.mp known
  have := (signalIndex_spec hm).1
  omega

end Slots

variable (nowUs : MonotonicTimestamp)
variable (state : ProfileState × ProviderProcessResult)

namespace ProfileState

/-- What no call changes: the tables and their check. -/
def profile (s : ProfileState) : ProfileTables × Bool := (s.tables, s.validTables)

theorem tables_of_profile {s s' : ProfileState} (same : s'.profile = s.profile) :
    s'.tables = s.tables := congrArg Prod.fst same

/-! ### Marks and commits on one slot -/

section Steps

variable {s : ProfileState} {id : SignalId} {result : ProviderProcessResult}
  {timestampUs nowUs : MonotonicTimestamp}

theorem signals_setSignal (s : ProfileState) (index : ℕ) (sample : SignalState) :
    (s.setSignal index sample).signals = Function.update s.signals index sample := rfl

theorem profile_markInvalid :
    (s.markInvalid id timestampUs result).1.profile = s.profile := by
  unfold markInvalid
  dsimp only
  split
  · rfl
  · split <;> rfl

/-- A mark is the delivery of an invalid decode. -/
theorem signals_markInvalid (small : s.tables.catalog.length ≤ kMaxRuntimeSignals)
    (known : (s.tables.catalog.find id).isSome = true) :
    (s.markInvalid id timestampUs result).1.signals =
      Function.update s.signals (signalIndex s.tables id)
        ((s.signals (signalIndex s.tables id)).deliver timestampUs (some none)) := by
  unfold markInvalid
  rw [if_neg (signalIndex_in_bounds small known)]
  cases hw : (s.signals (signalIndex s.tables id)).updateWatermark timestampUs with
  | none => simp [deliver, hw]
  | some raised => simp [deliver, hw, signals_setSignal]

variable {metadata : SignalMetadata} {decoded : DecodeResult}

theorem profile_commitValid :
    (s.commitValid metadata decoded timestampUs nowUs result).1.profile = s.profile := by
  unfold commitValid
  dsimp only
  split
  · rfl
  · split <;> rfl

/-- A commit is the delivery of a value. -/
theorem signals_commitValid (small : s.tables.catalog.length ≤ kMaxRuntimeSignals)
    (known : (s.tables.catalog.find metadata.id).isSome = true) :
    (s.commitValid metadata decoded timestampUs nowUs result).1.signals =
      Function.update s.signals (signalIndex s.tables metadata.id)
        ((s.signals (signalIndex s.tables metadata.id)).deliver timestampUs
          (some (some decoded.value))) := by
  unfold commitValid
  rw [if_neg (signalIndex_in_bounds small known)]
  cases hw : (s.signals (signalIndex s.tables metadata.id)).updateWatermark timestampUs with
  | none => simp [deliver, hw]
  | some raised => simp [deliver, hw, signals_setSignal]

end Steps

/-! ### Loops over the catalogue -/

section Loops

variable (s : ProfileState) (nowUs : MonotonicTimestamp) (result : ProviderProcessResult)

theorem profile_serviceSignal (index : ℕ) :
    (s.serviceSignal nowUs result index).1.profile = s.profile := by
  unfold serviceSignal
  split
  · rfl
  split
  · rfl
  split <;> rfl

theorem core_serviceSignal (index i : ℕ) :
    ((s.serviceSignal nowUs result index).1.signals i).core = (s.signals i).core := by
  unfold serviceSignal
  split
  · rfl
  split
  · rfl
  split
  · rfl
  · by_cases hi : i = index
    · subst hi
      simp [signals_setSignal, core]
    · simp [signals_setSignal, Function.update_of_ne hi]

/-- Reporting the expired samples changes no slot apart from the report. -/
theorem serviceDueLocked_spec :
    (s.serviceDueLocked nowUs result).1.profile = s.profile ∧
      ∀ i, ((s.serviceDueLocked nowUs result).1.signals i).core = (s.signals i).core := by
  refine List.foldlRecOn (motive := fun state : ProfileState × ProviderProcessResult =>
    state.1.profile = s.profile ∧ ∀ i, (state.1.signals i).core = (s.signals i).core) _ _
    ⟨rfl, fun _ => rfl⟩ ?_
  rintro state ⟨hprofile, hcore⟩ index -
  exact ⟨(profile_serviceSignal _ _ _ _).trans hprofile,
    fun i => (core_serviceSignal _ _ _ _ _).trans (hcore i)⟩

/-- A loop that acts on the slot of every entry of the catalogue. -/
theorem signals_catalogLoop
    {f : ProfileState × ProviderProcessResult → ℕ → ProfileState × ProviderProcessResult}
    {act : SignalState → SignalState} (start : ProfileState × ProviderProcessResult)
    (profile : ∀ state i, (f state i).1.profile = state.1.profile)
    (signals : ∀ state i, i < state.1.tables.catalog.length →
      (f state i).1.signals = Function.update state.1.signals i (act (state.1.signals i)))
    (i : ℕ) (hi : i < start.1.tables.catalog.length) :
    ((List.range start.1.tables.catalog.length).foldl f start).1.signals i =
      act (start.1.signals i) := by
  have nodup : ((List.range start.1.tables.catalog.length).map id).Nodup := by
    simpa using List.nodup_range
  have hfind : ((List.range start.1.tables.catalog.length).find? fun k => id k = i) = some i := by
    rw [List.find?_range_eq_some]
    simpa using ⟨hi, fun k hk => Nat.ne_of_lt hk⟩
  rw [Pointwise.foldl (I := fun state : ProfileState × ProviderProcessResult =>
      state.1.tables = start.1.tables)
    (fun state : ProfileState × ProviderProcessResult => state.1.signals) id (fun _ => act) ?_ ?_ ?_
      nodup rfl i, hfind]
  · rfl
  · intro state k _ hstate
    exact (tables_of_profile (profile state k)).trans hstate
  · intro state k hk hstate
    rw [signals state k (hstate ▸ List.mem_range.mp hk)]
    exact Function.update_self ..
  · intro state k hk hstate j hj
    rw [signals state k (hstate ▸ List.mem_range.mp hk)]
    exact Function.update_of_ne hj ..

end Loops

theorem profile_faultSignal (i : ℕ) : (faultSignal nowUs state i).1.profile = state.1.profile := by
  unfold faultSignal
  dsimp only
  split <;> rfl

theorem signals_faultSignal (i : ℕ) (hi : i < state.1.tables.catalog.length) :
    (faultSignal nowUs state i).1.signals =
      Function.update state.1.signals i ((state.1.signals i).faulted nowUs) := by
  unfold faultSignal
  simp only [List.getElem?_eq_getElem hi]
  rfl

theorem profile_resetSignal (i : ℕ) : (resetSignal nowUs state i).1.profile = state.1.profile := by
  unfold resetSignal
  dsimp only
  split <;> rfl

theorem signals_resetSignal (i : ℕ) (hi : i < state.1.tables.catalog.length) :
    (resetSignal nowUs state i).1.signals =
      Function.update state.1.signals i ((state.1.signals i).cleared nowUs) := by
  unfold resetSignal
  simp only [List.getElem?_eq_getElem hi]
  rfl

/-! ### One call on one slot -/

section Calls

variable {s : ProfileState} {id : SignalId} {nowUs : MonotonicTimestamp}

theorem service_signal (i : ℕ) :
    ((s.service nowUs).1.signals i).core = (s.signals i).core := by
  unfold service
  split
  · rfl
  · exact (s.serviceDueLocked_spec nowUs {}).2 i

/-- A fault makes every signal unavailable for the frames up to its time. -/
theorem fault_signal (valid : s.validTables = true) {i : ℕ} (hi : i < s.tables.catalog.length) :
    ((s.fault nowUs).1.signals i).core = ((s.signals i).faulted nowUs).core := by
  obtain ⟨hprofile, hcore⟩ := s.serviceDueLocked_spec nowUs {}
  have htables := tables_of_profile hprofile
  unfold fault
  simp only [valid, Bool.not_true, Bool.false_eq_true, if_false]
  rw [← htables]
  rw [signals_catalogLoop (s.serviceDueLocked nowUs {}) (profile_faultSignal nowUs)
    (signals_faultSignal nowUs) i (by rw [htables]; exact hi)]
  exact core_faulted (hcore i) nowUs

/-- A reset forgets every sample but no watermark. -/
theorem reset_signal (valid : s.validTables = true) {i : ℕ} (hi : i < s.tables.catalog.length) :
    (s.reset nowUs).1.signals i = (s.signals i).cleared nowUs := by
  unfold reset
  simp only [valid, Bool.not_true, Bool.false_eq_true, if_false]
  exact signals_catalogLoop (s, {}) (profile_resetSignal nowUs) (signals_resetSignal nowUs) i hi

end Calls

/-! ### One frame on one slot -/

section Process

variable {isValid : RawCanFrame → Bool} {s : ProfileState} {frame : RawCanFrame} {id : SignalId}
  {entry : DispatchEntry} {timestampUs nowUs : MonotonicTimestamp}

/-- Known, distinct signals have distinct slots. -/
theorem slots_nodup {X : Type} {tables : ProfileTables} {key : X → SignalId} {l : List X}
    (known : ∀ x ∈ l, (tables.catalog.find (key x)).isSome = true) (nodup : (l.map key).Nodup) :
    (l.map fun x => signalIndex tables (key x)).Nodup := by
  have := List.Nodup.map_on (f := signalIndex tables) (l := l.map key) ?_ nodup
  · rw [List.map_map] at this
    exact this
  · intro a ha b hb hab
    obtain ⟨x, hx, rfl⟩ := List.mem_map.mp ha
    obtain ⟨y, hy, rfl⟩ := List.mem_map.mp hb
    exact signalIndex_inj (known x hx) (known y hy) hab

/-- A loop of deliveries to known, distinct signals, seen from one known signal. -/
theorem signals_deliveries {S X : Type} (view : S → ProfileState) (key : X → SignalId)
    (decode : X → Option SignalValue) (timestampUs : MonotonicTimestamp) {f : S → X → S}
    {l : List X} (start : S)
    (known : ∀ x ∈ l, ((view start).tables.catalog.find (key x)).isSome = true)
    (nodup : (l.map key).Nodup)
    (profile : ∀ st x, (view (f st x)).profile = (view st).profile)
    (signals : ∀ st, ∀ x ∈ l, (view st).tables = (view start).tables →
      (view (f st x)).signals = Function.update (view st).signals
        (signalIndex (view start).tables (key x))
        (((view st).signals (signalIndex (view start).tables (key x))).deliver timestampUs
          (some (decode x))))
    (hid : ((view start).tables.catalog.find id).isSome = true) :
    (view (l.foldl f start)).signals (signalIndex (view start).tables id) =
      ((view start).signals (signalIndex (view start).tables id)).deliver timestampUs
        ((l.find? fun x => key x = id).map decode) := by
  set slot := signalIndex (view start).tables with hslot
  have inj : ∀ x ∈ l, (slot (key x) = slot id ↔ key x = id) := fun x hx =>
    ⟨signalIndex_inj (known x hx) hid, fun h => by rw [h]⟩
  have nodup_slots : (l.map fun x => slot (key x)).Nodup := slots_nodup known nodup
  rw [Pointwise.foldl (I := fun st => (view st).tables = (view start).tables)
    (fun st => (view st).signals) (fun x => slot (key x))
    (fun x sample => sample.deliver timestampUs (some (decode x)))
    (fun st x _ hst => (tables_of_profile (profile st x)).trans hst) ?_ ?_ nodup_slots rfl (slot id)]
  · have hfind : (l.find? fun x => slot (key x) = slot id) = l.find? fun x => key x = id := by
      refine List.find?_congr fun x hx => ?_
      exact decide_eq_decide.mpr (inj x hx)
    rw [hfind]
    cases l.find? fun x => key x = id with
    | none => simp [deliver]
    | some x => rfl
  · intro st x hx hst
    rw [signals st x hx hst]
    exact Function.update_self ..
  · intro st x hx hst k hk
    rw [signals st x hx hst]
    exact Function.update_of_ne hk ..

/-- Marking the outputs of an entry delivers an invalid decode to each of them. -/
theorem signals_markOutputs {result : ProviderProcessResult}
    (small : s.tables.catalog.length ≤ kMaxRuntimeSignals)
    (known : ∀ output ∈ entry.outputIds, (s.tables.catalog.find output).isSome = true)
    (nodup : entry.outputIds.Nodup) (hid : (s.tables.catalog.find id).isSome = true) :
    (s.markOutputs entry timestampUs result).1.signals (signalIndex s.tables id) =
      (s.signals (signalIndex s.tables id)).deliver timestampUs
        (if id ∈ entry.outputIds then some none else none) := by
  unfold markOutputs
  rw [signals_deliveries Prod.fst (fun output => output) (fun _ => none) timestampUs
    (s, result) known (by simpa using nodup)
    (fun st x => profile_markInvalid) ?_ hid]
  · cases hfind : entry.outputIds.find? fun output => output = id with
    | none =>
      have hnot : id ∉ entry.outputIds := fun hmem =>
        List.find?_eq_none.mp hfind id hmem (decide_eq_true rfl)
      rw [if_neg hnot]
      rfl
    | some output =>
      have hout : output = id := by simpa using List.find?_some hfind
      have hmem : id ∈ entry.outputIds := hout ▸ List.mem_of_find?_eq_some hfind
      rw [if_pos hmem]
      rfl
  · intro st x hx hst
    have hst : st.1.tables = s.tables := hst
    rw [signals_markInvalid (hst ▸ small) (hst ▸ known x hx), hst]

/-- Taking one result of a well-formed list delivers its verdict. -/
theorem signals_commitResult (state : (ProfileState × ProviderProcessResult) × Bool)
    (decoded : DecodeResult)
    (small : state.1.1.tables.catalog.length ≤ kMaxRuntimeSignals)
    (known : (state.1.1.tables.catalog.find decoded.id).isSome = true) :
    (commitResult frame nowUs state decoded).1.1.signals = Function.update state.1.1.signals
      (signalIndex state.1.1.tables decoded.id)
      ((state.1.1.signals (signalIndex state.1.1.tables decoded.id)).deliver frame.timestampUs
        (some (verdict state.1.1.tables decoded))) := by
  obtain ⟨⟨s, result⟩, invalidResult⟩ := state
  obtain ⟨metadata, hmetadata⟩ := Option.isSome_iff_exists.mp known
  have hid : metadata.id = decoded.id := (signalIndex_spec hmetadata).2.2
  unfold commitResult verdict
  simp only [hmetadata]
  cases haccepted : acceptedResult metadata decoded with
  | false =>
    exact signals_markInvalid small known
  | true =>
    cases hvalid : decoded.valid with
    | false =>
      exact signals_markInvalid small known
    | true =>
      rw [← hid]
      exact signals_commitValid small (hid ▸ known)

theorem profile_commitResult (state : (ProfileState × ProviderProcessResult) × Bool)
    (decoded : DecodeResult) :
    (commitResult frame nowUs state decoded).1.1.profile = state.1.1.profile := by
  unfold commitResult
  dsimp only
  split
  · rfl
  · split
    · exact profile_markInvalid
    · split
      · exact profile_commitValid
      · exact profile_markInvalid

/-- A processed frame reports what is due and then delivers to every known signal what it says
about it. -/
theorem process_slot (wellFormed : tableWellFormed s.tables) (valid : s.validTables = true)
    (hid : (s.tables.catalog.find id).isSome = true) :
    (s.process isValid frame nowUs).1.signals (signalIndex s.tables id) =
      ((s.serviceDueLocked nowUs {}).1.signals (signalIndex s.tables id)).deliver frame.timestampUs
        (decodeOf isValid s.tables frame id) := by
  have htables := tables_of_profile (s.serviceDueLocked_spec nowUs {}).1
  obtain ⟨small, -, -, -, -, -, -, -, -, entries, -⟩ := wellFormed
  unfold process decodeOf
  simp only [valid, Bool.not_true, Bool.false_eq_true, if_false]
  generalize s.serviceDueLocked nowUs {} = state at htables
  obtain ⟨s₁, result⟩ := state
  rw [← htables] at small hid ⊢
  cases hentry : findDispatch s₁.tables frame.identifier with
  | none => rfl
  | some entry =>
    have hmem : entry ∈ s.tables.dispatch := by
      rw [← htables]
      exact List.mem_of_find?_eq_some hentry
    obtain ⟨-, -, -, -, hknown, houtputs⟩ := entries entry hmem
    rw [← htables] at hknown
    have known : ∀ output ∈ entry.outputIds, (s₁.tables.catalog.find output).isSome = true :=
      fun output ho => (hknown output ho).1
    have marked : ∀ timestampUs, (s₁.markOutputs entry timestampUs result).1.signals
        (signalIndex s₁.tables id) =
          (s₁.signals (signalIndex s₁.tables id)).deliver timestampUs
            (if id ∈ entry.outputIds then some none else none) :=
      fun timestampUs => signals_markOutputs small known houtputs hid
    by_cases hshape : validShape isValid frame entry
    · simp only [hshape, not_true_eq_false, if_false]
      generalize entry.decoded frame s₁.tables.maxDecodeResults = decoded
      obtain ⟨results, resultCount⟩ := decoded
      by_cases hlist : s₁.resultListWellFormed entry resultCount results
      · have hlist' : resultListWellFormed { tables := s₁.tables } entry resultCount results :=
          hlist
        simp only [hlist, hlist', not_true_eq_false, if_false]
        obtain ⟨-, -, hout, hnodup⟩ := hlist
        have taken := signals_deliveries (fun st => st.1.1) DecodeResult.id (verdict s₁.tables)
          frame.timestampUs (f := commitResult frame nowUs) ((s₁, result), false)
          (fun decoded hd => known _ (hout decoded hd)) hnodup
          (fun st decoded => profile_commitResult st decoded)
          (fun st decoded hd hst => by
            have hst : st.1.1.tables = s₁.tables := hst
            rw [signals_commitResult st decoded (hst ▸ small)
              (hst ▸ known _ (hout decoded hd)), hst]) hid
        rw [taken]
        by_cases hmember : id ∈ entry.outputIds
        · simp only [hmember, not_true_eq_false, if_false]
        · have hfind : (results.find? fun decoded => decoded.id = id) = none := by
            rw [List.find?_eq_none]
            intro decoded hd heq
            exact hmember (of_decide_eq_true heq ▸ hout decoded hd)
          simp only [hmember, not_false_eq_true, if_true, hfind, Option.map_none]
      · have hlist' : ¬ resultListWellFormed { tables := s₁.tables } entry resultCount results :=
          hlist
        simp only [hlist', hlist, not_false_eq_true, if_true]
        rw [marked]
        split <;> simp_all
    · simp only [hshape, not_false_eq_true, if_true]
      rw [marked]
      split <;> simp_all

/-- **A processed frame** delivers to every known signal what it says about it. -/
theorem process_signal (wellFormed : tableWellFormed s.tables) (valid : s.validTables = true)
    (hid : (s.tables.catalog.find id).isSome = true) :
    ((s.process isValid frame nowUs).1.signals (signalIndex s.tables id)).core =
      ((s.signals (signalIndex s.tables id)).deliver frame.timestampUs
        (decodeOf isValid s.tables frame id)).core := by
  rw [process_slot wellFormed valid hid]
  exact core_deliver ((s.serviceDueLocked_spec nowUs {}).2 _) _ _

end Process

/-! ### No call changes the profile -/

theorem profile_foldl {S X : Type} (view : S → ProfileState) {f : S → X → S}
    (profile : ∀ st x, (view (f st x)).profile = (view st).profile) (l : List X) (start : S) :
    (view (l.foldl f start)).profile = (view start).profile :=
  List.foldlRecOn (motive := fun st => (view st).profile = (view start).profile) _ _ rfl
    fun st hst x _ => (profile st x).trans hst

theorem profile_markOutputs (s : ProfileState) (entry : DispatchEntry)
    (timestampUs : MonotonicTimestamp) (result : ProviderProcessResult) :
    (s.markOutputs entry timestampUs result).1.profile = s.profile :=
  profile_foldl Prod.fst (fun _ _ => profile_markInvalid) _ (s, result)

theorem profile_process (isValid : RawCanFrame → Bool) (s : ProfileState) (frame : RawCanFrame)
    (nowUs : MonotonicTimestamp) : (s.process isValid frame nowUs).1.profile = s.profile := by
  have hprofile := (s.serviceDueLocked_spec nowUs {}).1
  unfold process
  split
  · rfl
  dsimp only
  split
  · exact hprofile
  split
  · exact (profile_markOutputs _ _ _ _).trans hprofile
  split
  · exact (profile_markOutputs _ _ _ _).trans hprofile
  · exact (profile_foldl (fun st : (ProfileState × ProviderProcessResult) × Bool => st.1.1)
      (fun st decoded => profile_commitResult st decoded) _ _).trans hprofile

/-- No call changes the profile. -/
theorem profile_step (isValid : RawCanFrame → Bool) (s : ProfileState) (call : ProviderCall) :
    (s.step isValid call).1.profile = s.profile := by
  cases call with
  | process frame nowUs => exact profile_process isValid s frame nowUs
  | service nowUs =>
    simp only [step, service]
    split
    · rfl
    · exact (s.serviceDueLocked_spec nowUs {}).1
  | fault nowUs =>
    simp only [step, fault]
    split
    · rfl
    · exact (profile_foldl Prod.fst (profile_faultSignal nowUs) _ _).trans
        (s.serviceDueLocked_spec nowUs {}).1
  | reset nowUs =>
    simp only [step, reset]
    split
    · rfl
    · exact profile_foldl Prod.fst (profile_resetSignal nowUs) _ (s, {})

end ProfileState

end AccessoryController.ProfileRuntime
