import AccessoryController.Library.Machine
import AccessoryController.ProfileRuntime.Decodes

/-!
# A usable reading is the latest decode

The history of a provider is the list of its calls, each with the state that it met. A call moves
the watermark of a signal when it is a fault, a reset or a frame whose decode is accepted; what a
slot holds is what the last of these moves left.

## Main definitions

* `stamp id move`: the time at which a move raises the watermark of a signal
* `LatestDecode id value time h`: the last move of the signal is the decode of `value`
* `Tracked id sample h`: the slot of a signal agrees with its history

## Main results

* `tracked_step`: every call keeps every slot in agreement
* `usable_reading_is_latest_decode`: what a usable reading says about the run
* `late_frame_changes_no_reading`: a frame at or before the watermark changes no reading
* `profile_runtime_freshness`: both, for every profile and every run
-/

namespace AccessoryController.ProfileRuntime

open VehicleCore VehicleSignals

variable (isValid : RawCanFrame → Bool)

/-- The slot of a signal. -/
def ProfileState.signal (s : ProfileState) (id : SignalId) : SignalState :=
  s.signals (signalIndex s.tables id)

/-- A frame decodes the signal, validly or not, and is stamped after its watermark. -/
def accepts (s : ProfileState) (frame : RawCanFrame) (id : SignalId) : Bool :=
  (decodeOf isValid s.tables frame id).isSome &&
    ((s.signal id).updateWatermark frame.timestampUs).isSome

/-- The time at which a move raises the watermark of a signal: an accepted decode, a fault or a
reset. -/
def stamp (id : SignalId) : ProfileState × ProviderCall → Option MonotonicTimestamp
  | (s, .process frame _) => if accepts isValid s frame id then some frame.timestampUs else none
  | (_, .fault nowUs) => some nowUs
  | (_, .reset nowUs) => some nowUs
  | (_, .service _) => none

/-- The last move of a signal is the accepted decode of `value` from a frame stamped `timestampUs`,
and all moves before it are stamped before. -/
def LatestDecode (id : SignalId) (value : SignalValue) (timestampUs : MonotonicTimestamp)
    (h : List (ProfileState × ProviderCall)) : Prop :=
  ∃ before s frame nowUs after, h = before ++ (s, .process frame nowUs) :: after ∧
    frame.timestampUs = timestampUs ∧ accepts isValid s frame id = true ∧
    decodeOf isValid s.tables frame id = some (some value) ∧
    (∀ move ∈ before, ∀ time, stamp isValid id move = some time → time < timestampUs) ∧
    ∀ move ∈ after, stamp isValid id move = none

/-- The slot of a signal agrees with its history. -/
structure Tracked (id : SignalId) (sample : SignalState)
    (h : List (ProfileState × ProviderCall)) : Prop where
  stamped : ∀ move ∈ h, ∀ time, stamp isValid id move = some time →
    sample.hasWatermark = true ∧ time ≤ sample.watermarkUs
  latest : sample.hasValue = true → sample.invalid = false →
    LatestDecode isValid id sample.value sample.sampleTimestampUs h

variable {isValid} {id : SignalId} {sample : SignalState}
  {h : List (ProfileState × ProviderCall)} {move : ProfileState × ProviderCall}

section

variable (tracked : Tracked isValid id sample h)
include tracked

/-- Agreement does not depend on the report of an expiry. -/
theorem Tracked.congr {sample' : SignalState} (same : sample'.core = sample.core) :
    Tracked isValid id sample' h := by
  obtain ⟨v, ts, w, hw, hv, i, d⟩ := sample
  obtain ⟨v', ts', w', hw', hv', i', d'⟩ := sample'
  obtain ⟨rfl, rfl, rfl, rfl, rfl, rfl, -⟩ := SignalState.mk.inj same
  exact ⟨tracked.stamped, tracked.latest⟩

/-- A move without a stamp leaves the slot alone. -/
theorem Tracked.quiet (quiet : stamp isValid id move = none) :
    Tracked isValid id sample (h ++ [move]) := by
  constructor
  · intro m hm time htime
    rcases List.mem_append.mp hm with hm | hm
    · exact tracked.stamped m hm time htime
    · rw [List.mem_singleton.mp hm, quiet] at htime
      cases htime
  · intro hvalue husable
    obtain ⟨before, s, frame, nowUs, after, rfl, htime, haccepts, hdecode, hbefore, hafter⟩ :=
      tracked.latest hvalue husable
    refine ⟨before, s, frame, nowUs, after ++ [move], by simp, htime, haccepts, hdecode, hbefore,
      fun m hm => ?_⟩
    rcases List.mem_append.mp hm with hm | hm
    · exact hafter m hm
    · rw [List.mem_singleton.mp hm]
      exact quiet

/-- A slot whose watermark has reached the stamp of the last move covers every stamp. -/
theorem stamped_snoc {sample' : SignalState} (watermark : sample'.hasWatermark = true)
    (covers : sample.hasWatermark = true → sample.watermarkUs ≤ sample'.watermarkUs)
    (last : ∀ time, stamp isValid id move = some time → time ≤ sample'.watermarkUs) :
    ∀ m ∈ h ++ [move], ∀ time, stamp isValid id m = some time →
      sample'.hasWatermark = true ∧ time ≤ sample'.watermarkUs := by
  intro m hm time htime
  refine ⟨watermark, ?_⟩
  rcases List.mem_append.mp hm with hm | hm
  · obtain ⟨hw, hle⟩ := tracked.stamped m hm time htime
    exact Nat.le_trans hle (covers hw)
  · rw [List.mem_singleton.mp hm] at htime
    exact last time htime

end

variable {nowUs : MonotonicTimestamp} {s : ProfileState} {tables : ProfileTables}

theorem Tracked.faulted (tracked : Tracked isValid id sample h)
    (stamped : stamp isValid id move = some nowUs) :
    Tracked isValid id (sample.faulted nowUs) (h ++ [move]) := by
  constructor
  · apply stamped_snoc tracked
    · cases hw : sample.hasWatermark <;>
        by_cases hlt : sample.watermarkUs < nowUs <;>
        simp [SignalState.faulted, SignalState.raiseWatermark, hw, hlt]
    · intro hw
      by_cases hlt : sample.watermarkUs < nowUs
      · simp [SignalState.faulted, SignalState.raiseWatermark, hw, hlt, Nat.le_of_lt hlt]
      · simp [SignalState.faulted, SignalState.raiseWatermark, hw, hlt]
    · intro time htime
      obtain rfl : nowUs = time := Option.some.inj (stamped.symm.trans htime)
      cases hw : sample.hasWatermark
      · simp [SignalState.faulted, SignalState.raiseWatermark, hw]
      · by_cases hlt : sample.watermarkUs < nowUs
        · simp [SignalState.faulted, SignalState.raiseWatermark, hw, hlt]
        · simpa [SignalState.faulted, SignalState.raiseWatermark, hw, hlt]
            using Nat.not_lt.mp hlt
  · intro _ husable
    cases husable

theorem Tracked.cleared (tracked : Tracked isValid id sample h)
    (stamped : stamp isValid id move = some nowUs) :
    Tracked isValid id (sample.cleared nowUs) (h ++ [move]) := by
  have faulted := tracked.faulted stamped
  constructor
  · intro m hm time htime
    exact ⟨rfl, (faulted.stamped m hm time htime).2⟩
  · intro hvalue
    cases hvalue

/-- A frame's decode reaches the slot, guarded by the watermark. -/
theorem Tracked.deliver {frame : RawCanFrame} (tracked : Tracked isValid id (s.signal id) h) :
    Tracked isValid id ((s.signal id).deliver frame.timestampUs
      (decodeOf isValid s.tables frame id)) (h ++ [(s, .process frame nowUs)]) := by
  cases hdecode : decodeOf isValid s.tables frame id with
  | none => exact tracked.quiet (by simp [stamp, accepts, hdecode])
  | some decode =>
    cases hraised : (s.signal id).updateWatermark frame.timestampUs with
    | none =>
      have refused : (s.signal id).deliver frame.timestampUs (some decode) = s.signal id := by
        cases decode <;> simp [SignalState.deliver, hraised]
      rw [refused]
      exact tracked.quiet (by simp [stamp, accepts, hraised])
    | some raised =>
      have accepted : accepts isValid s frame id = true := by simp [accepts, hdecode, hraised]
      have hstamp : stamp isValid id (s, .process frame nowUs) = some frame.timestampUs :=
        if_pos accepted
      -- the watermark was behind the frame, and is at the frame now
      have hafter : ¬ ((s.signal id).hasWatermark = true ∧
          frame.timestampUs ≤ (s.signal id).watermarkUs) := by
        intro hbefore
        rw [SignalState.updateWatermark, if_pos hbefore] at hraised
        cases hraised
      have hraised' : raised = { s.signal id with
          watermarkUs := frame.timestampUs, hasWatermark := true } := by
        rw [SignalState.updateWatermark, if_neg hafter] at hraised
        exact (Option.some.inj hraised).symm
      have earlier : ∀ m ∈ h, ∀ time, stamp isValid id m = some time →
          time < frame.timestampUs := by
        intro m hm time htime
        obtain ⟨hw, hle⟩ := tracked.stamped m hm time htime
        exact Nat.lt_of_not_le fun hle' => hafter ⟨hw, Nat.le_trans hle' hle⟩
      have covers : (s.signal id).hasWatermark = true →
          (s.signal id).watermarkUs ≤ frame.timestampUs := by
        intro hw
        exact Nat.le_of_not_le fun hle => hafter ⟨hw, hle⟩
      have last : ∀ time, stamp isValid id (s, .process frame nowUs) = some time →
          time ≤ frame.timestampUs := by
        intro time htime
        rw [hstamp] at htime
        exact Nat.le_of_eq (Option.some.inj htime).symm
      cases decode with
      | none =>
        simp only [SignalState.deliver, hraised]
        refine ⟨stamped_snoc tracked (by simp [hraised']) (by simpa [hraised'] using covers)
          (by simpa [hraised'] using last), fun _ husable => ?_⟩
        cases husable
      | some value =>
        simp only [SignalState.deliver, hraised]
        refine ⟨stamped_snoc tracked (by simp [hraised']) (by simpa [hraised'] using covers)
          (by simpa [hraised'] using last), fun _ _ => ?_⟩
        exact ⟨h, s, frame, nowUs, [], rfl, rfl, accepted, hdecode, earlier,
          fun m hm => absurd hm List.not_mem_nil⟩

/-! ### Every call and every run -/

/-- A checked provider over `tables` whose slots agree with their histories. -/
structure Faithful (isValid : RawCanFrame → Bool) (tables : ProfileTables) (s : ProfileState)
    (h : List (ProfileState × ProviderCall)) : Prop where
  tables_eq : s.tables = tables
  valid : s.validTables = true
  met : ∀ move ∈ h, move.1.tables = tables
  tracked : ∀ id, (s.tables.catalog.find id).isSome = true → Tracked isValid id (s.signal id) h

/-- **One call** keeps every slot in agreement with its history. -/
theorem tracked_step (wellFormed : tableWellFormed tables) (faithful : Faithful isValid tables s h)
    (call : ProviderCall) : Faithful isValid tables (s.step isValid call).1 (h ++ [(s, call)]) := by
  obtain ⟨rfl, valid, met, tracked⟩ := faithful
  have profile := ProfileState.profile_step isValid s call
  have htables := ProfileState.tables_of_profile profile
  refine ⟨htables, (congrArg Prod.snd profile).trans valid, fun m hm => ?_, fun id hid => ?_⟩
  · rcases List.mem_append.mp hm with hm | hm
    · exact met m hm
    · rw [List.mem_singleton.mp hm]
  rw [htables] at hid
  obtain ⟨metadata, hmetadata⟩ := Option.isSome_iff_exists.mp hid
  have hslot := (signalIndex_spec hmetadata).1
  have here := tracked id hid
  rw [ProfileState.signal, htables]
  cases call with
  | process frame nowUs =>
    exact here.deliver.congr (ProfileState.process_signal wellFormed valid hid)
  | service nowUs => exact (here.congr (ProfileState.service_signal _)).quiet rfl
  | fault nowUs => exact (here.faulted rfl).congr (ProfileState.fault_signal valid hslot)
  | reset nowUs =>
    rw [ProfileState.step, ProfileState.reset_signal valid hslot]
    exact here.cleared rfl

theorem faithful_after (wellFormed : tableWellFormed tables) (calls : List ProviderCall) :
    Faithful isValid tables
      (Machine.after (ProfileState.step isValid) (.create tables true) calls)
      (Machine.moves (ProfileState.step isValid) (.create tables true) calls) := by
  refine Machine.invariant_moves (P := Faithful isValid tables) ?_ ?_ calls
  · refine ⟨rfl, by simp [ProfileState.create, wellFormed], fun m hm => ?_,
      fun id _ => ⟨fun m hm => ?_, fun hvalue => ?_⟩⟩
    · cases hm
    · cases hm
    · cases hvalue
  · intro s h call faithful
    exact tracked_step wellFormed faithful call

/-- A usable reading: it is fresh, or its freshness is not verified. -/
def usable (reading : SignalReading) : Prop :=
  reading.availability = .fresh ∨ reading.availability = .freshnessUnverified

/-- What a successful read of a usable signal finds in its slot. -/
theorem read_usable {reading : SignalReading} (read : s.read id nowUs = .ok reading)
    (use : usable reading) :
    (s.tables.catalog.find id).isSome = true ∧ (s.signal id).hasValue = true ∧
      (s.signal id).invalid = false ∧ reading.value = some (s.signal id).value ∧
      (reading.availability = .fresh → ∃ policy, freshnessFor s.tables id = some policy ∧
        nowUs ≤ freshnessDeadline (s.signal id).sampleTimestampUs policy) := by
  unfold ProfileState.read at read
  cases hfind : s.tables.catalog.find id with
  | none => simp [hfind] at read
  | some metadata =>
    simp only [hfind] at read
    split at read
    · cases read
    split at read
    · cases read
    split at read
    · cases read
    cases hpolicy : freshnessFor s.tables id with
    | none => simp [hpolicy] at read
    | some policy =>
      simp only [hpolicy, Except.ok.injEq] at read
      subst read
      change usable ⟨if (s.signal id).hasValue then some (s.signal id).value else none,
        (s.signal id).availabilityAt policy nowUs, metadata.validation⟩ at use
      change true = true ∧ _ ∧ _ ∧
        (if (s.signal id).hasValue then some (s.signal id).value else none) = _ ∧
        ((s.signal id).availabilityAt policy nowUs = .fresh → _)
      unfold usable at use
      cases hinvalid : (s.signal id).invalid with
      | true => simp [SignalState.availabilityAt, hinvalid] at use
      | false =>
        cases hvalue : (s.signal id).hasValue with
        | false => simp [SignalState.availabilityAt, hinvalid, hvalue] at use
        | true =>
          refine ⟨rfl, rfl, rfl, if_pos rfl, fun hfresh => ⟨policy, rfl, ?_⟩⟩
          by_contra hlate
          simp only [SignalState.availabilityAt, hinvalid, hvalue] at hfresh
          rcases hdeclared : policy.declared with _ | _ <;>
            simp [hdeclared, Nat.not_le.mp hlate] at hfresh

/-- The reading of a signal depends on its slot apart from the report of its expiry. -/
theorem read_congr {s' : ProfileState} (profile : s'.profile = s.profile)
    (same : (s'.signal id).core = (s.signal id).core) (nowUs : MonotonicTimestamp) :
    s'.read id nowUs = s.read id nowUs := by
  obtain ⟨tables, validTables, signals⟩ := s
  obtain ⟨tables', validTables', signals'⟩ := s'
  obtain ⟨rfl, rfl⟩ := Prod.mk.inj profile
  unfold ProfileState.signal at same
  dsimp only at same
  unfold ProfileState.read
  dsimp only
  generalize signals (signalIndex tables' id) = sample at same ⊢
  generalize signals' (signalIndex tables' id) = sample' at same ⊢
  obtain ⟨v, ts, w, hw, hv, i, d⟩ := sample
  obtain ⟨v', ts', w', hw', hv', i', d'⟩ := sample'
  obtain ⟨rfl, rfl, rfl, rfl, rfl, rfl, -⟩ := SignalState.mk.inj same
  rfl

/-- **A usable reading** is the value of the latest decode of its signal; a fresh one is read by
the deadline of that decode. -/
theorem usable_reading_is_latest_decode (faithful : Faithful isValid tables s h)
    {reading : SignalReading} (read : s.read id nowUs = .ok reading) (use : usable reading) :
    ∃ value timestampUs, reading.value = some value ∧
      LatestDecode isValid id value timestampUs h ∧
      (reading.availability = .fresh → ∃ policy, freshnessFor tables id = some policy ∧
        nowUs ≤ freshnessDeadline timestampUs policy) := by
  obtain ⟨known, hvalue, hinvalid, hreading, hfresh⟩ := read_usable read use
  refine ⟨(s.signal id).value, (s.signal id).sampleTimestampUs, hreading,
    (faithful.tracked id known).latest hvalue hinvalid, fun fresh => ?_⟩
  rw [← faithful.tables_eq]
  exact hfresh fresh

/-- **A late frame**, stamped at or before the watermark of a signal that it decodes, leaves the
reading of the signal as it is at every time; so does a frame that does not decode it. -/
theorem late_frame_changes_no_reading (wellFormed : tableWellFormed tables)
    (faithful : Faithful isValid tables s h) {frame : RawCanFrame}
    (late : (decodeOf isValid tables frame id).isSome = true →
      (s.signal id).hasWatermark = true ∧ frame.timestampUs ≤ (s.signal id).watermarkUs)
    (nowUs readUs : MonotonicTimestamp) :
    (s.process isValid frame nowUs).1.read id readUs = s.read id readUs := by
  obtain ⟨rfl, valid, -, -⟩ := faithful
  have profile := ProfileState.profile_process isValid s frame nowUs
  cases hid : s.tables.catalog.find id with
  | none =>
    have htables := ProfileState.tables_of_profile profile
    simp [ProfileState.read, htables, hid]
  | some metadata =>
    refine read_congr profile ?_ readUs
    rw [ProfileState.signal, ProfileState.tables_of_profile profile,
      ProfileState.process_signal wellFormed valid (by rw [hid]; rfl)]
    cases hdecode : decodeOf isValid s.tables frame id with
    | none => rfl
    | some decode =>
      have refused : (s.signal id).updateWatermark frame.timestampUs = none :=
        if_pos (late (by rw [hdecode]; rfl))
      rw [ProfileState.signal] at refused ⊢
      cases decode <;> simp [SignalState.deliver, refused]

/-- **Freshness of the profile runtime.** For every well-formed profile and every run of calls in
any order, read through any time: a usable reading carries the value of an accepted valid decode
of its signal, later stamped than every decode accepted before it and every fault or reset before
it, with no decode accepted, no fault and no reset since; it is fresh only up to the deadline of
that decode. A frame stamped at or before the watermark of a signal changes no reading of it, and
neither does a frame that does not decode it. -/
theorem profile_runtime_freshness (isValid : RawCanFrame → Bool) (tables : ProfileTables)
    (wellFormed : tableWellFormed tables) (calls : List ProviderCall) (id : SignalId) :
    let s := Machine.after (ProfileState.step isValid) (.create tables true) calls
    let h := Machine.moves (ProfileState.step isValid) (.create tables true) calls
    (∀ nowUs reading, s.read id nowUs = .ok reading → usable reading →
      ∃ value timestampUs, reading.value = some value ∧
        (∃ before state frame receivedUs after,
          h = before ++ (state, .process frame receivedUs) :: after ∧
          frame.timestampUs = timestampUs ∧ accepts isValid state frame id = true ∧
          decodeOf isValid tables frame id = some (some value) ∧
          (∀ move ∈ before, ∀ time, stamp isValid id move = some time → time < timestampUs) ∧
          ∀ move ∈ after, stamp isValid id move = none) ∧
        (reading.availability = .fresh → ∃ policy, freshnessFor tables id = some policy ∧
          nowUs ≤ freshnessDeadline timestampUs policy)) ∧
    ∀ frame, ((decodeOf isValid tables frame id).isSome = true →
        (s.signal id).hasWatermark = true ∧ frame.timestampUs ≤ (s.signal id).watermarkUs) →
      ∀ nowUs readUs,
        (s.process isValid frame nowUs).1.read id readUs = s.read id readUs := by
  intro s h
  have faithful : Faithful isValid tables s h := faithful_after wellFormed calls
  constructor
  · intro nowUs reading read use
    obtain ⟨value, timestampUs, hvalue, latest, hfresh⟩ :=
      usable_reading_is_latest_decode faithful read use
    obtain ⟨before, state, frame, receivedUs, after, hsplit, htime, haccepts, hdecode, hbefore,
      hafter⟩ := latest
    have htables : state.tables = tables :=
      faithful.met (state, .process frame receivedUs) (by rw [hsplit]; simp)
    rw [htables] at hdecode
    exact ⟨value, timestampUs, hvalue, ⟨before, state, frame, receivedUs, after, hsplit, htime,
      haccepts, hdecode, hbefore, hafter⟩, hfresh⟩
  · intro frame late nowUs readUs
    exact late_frame_changes_no_reading wellFormed faithful late nowUs readUs

/-- A profile of one Boolean signal, the first payload bit of the message `0x201`, fresh for
100 ms. -/
def lampProfile : ProfileTables where
  catalog := [{ id := ⟨1⟩, key := [0x6c, 0x61, 0x6d, 0x70], capabilities := { read := true } }]
  freshnessPolicies := [{ id := ⟨1⟩, declared := true, timeoutMs := 100 }]
  dispatch := [{
    identifier := 0x201
    expectedDlc := 1
    decode := fun frame _ =>
      (Vector.replicate _ { id := ⟨1⟩, value := .boolean (frame.data[0] % 2 == 1), valid := true },
        1)
    outputIds := [⟨1⟩] }]
  maxDecodeResults := 1

/-- The lamp is lit by a frame, faulted later, and not lit again by a frame from before. -/
theorem profile_runtime_freshness_lamp :
    tableWellFormed lampProfile ∧
    let lit : RawCanFrame := { timestampUs := 10, identifier := 0x201, dlc := 1,
                               data := #v[1, 0, 0, 0, 0, 0, 0, 0] }
    let calls := [.process lit 11, .fault 20]
    let s := Machine.after (ProfileState.step fun _ => true) (.create lampProfile true) calls
    ∀ nowUs readUs, (s.process (fun _ => true) { lit with timestampUs := 15 } nowUs).1.read ⟨1⟩
      readUs = s.read ⟨1⟩ readUs := by
  have wellFormed : tableWellFormed lampProfile := by decide
  refine ⟨wellFormed, fun nowUs readUs => ?_⟩
  refine (profile_runtime_freshness (fun _ => true) lampProfile wellFormed _ ⟨1⟩).2 _ ?_ nowUs
    readUs
  intro _
  exact ⟨by decide, by decide⟩

end AccessoryController.ProfileRuntime
