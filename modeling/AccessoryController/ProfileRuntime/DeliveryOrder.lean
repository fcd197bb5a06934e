import Mathlib.Data.List.Pairwise
import Mathlib.Data.List.Perm.Subperm
import AccessoryController.Library.LatestWins
import AccessoryController.ProfileRuntime.Freshness

/-!
# The order of delivery does not matter

What a reading can show of a slot is a register that keeps the latest: the watermark is its mark,
and it holds the sample, or that the sample is unusable. Each frame of an entry is an offer to
every signal of the entry, valid or not. Frames with distinct timestamps therefore leave the same
readings in every order.

## Main definitions

* `SignalState.register`: the slot as a register that keeps the latest
* `entryFrames entry calls`: the frames of an entry that a run delivers
* `offerOf tables id frame`: what a frame offers to a signal

## Main results

* `register_deliver`: a delivery is an offer
* `register_after`: a run is the offers of its frames
* `delivery_order_independence`: two orders of the same frames leave the same readings
-/

namespace AccessoryController.ProfileRuntime

open VehicleCore VehicleSignals LatestWins
open ProfileState (signal step)

/-! ### A slot as a register -/

/-- What a reading shows of a usable sample: its flag, its value and its timestamp. -/
abbrev Shown := Bool × SignalValue × MonotonicTimestamp

namespace SignalState

/-- The watermark, and the sample unless it is unusable. -/
def register (sample : SignalState) : Register MonotonicTimestamp (Option Shown) where
  mark := if sample.hasWatermark then .some sample.watermarkUs else ⊥
  held := if sample.invalid then none
    else some (sample.hasValue, sample.value, sample.sampleTimestampUs)

theorem register_core (sample : SignalState) : sample.core.register = sample.register := rfl

theorem register_congr {a b : SignalState} (same : a.core = b.core) : a.register = b.register := by
  rw [← register_core, same, register_core]

/-- What an offered decode shows if it is taken. -/
def shown (timestampUs : MonotonicTimestamp) (decode : Option SignalValue) : Option Shown :=
  decode.map fun value => (true, value, timestampUs)

/-- A delivered decode is an offer to the register. -/
theorem register_deliver (sample : SignalState) (timestampUs : MonotonicTimestamp)
    (decode : Option SignalValue) :
    (sample.deliver timestampUs (some decode)).register =
      sample.register.offer (timestampUs, shown timestampUs decode) := by
  by_cases late : sample.hasWatermark = true ∧ timestampUs ≤ sample.watermarkUs
  · have refused : sample.deliver timestampUs (some decode) = sample := by
      cases decode <;> simp [deliver, updateWatermark, late]
    rw [refused, Register.offer_of_le]
    rw [register, if_pos late.1]
    exact WithBot.coe_le_coe.mpr late.2
  · have new : sample.register.mark < (timestampUs : WithBot MonotonicTimestamp) := by
      unfold register
      by_cases marked : sample.hasWatermark = true
      · rw [if_pos marked]
        exact WithBot.coe_lt_coe.mpr (Nat.lt_of_not_le fun le => late ⟨marked, le⟩)
      · rw [if_neg marked]
        exact WithBot.bot_lt_coe _
    rw [Register.offer_of_lt new]
    have raised : sample.updateWatermark timestampUs =
        some { sample with watermarkUs := timestampUs, hasWatermark := true } := if_neg late
    cases decode <;> simp only [deliver, raised] <;> rfl

/-- The availability of a sample is the same for every slot that shows the same. -/
theorem availabilityAt_congr {a b : SignalState} (same : a.register.held = b.register.held)
    (policy : SignalFreshnessPolicy) (nowUs : MonotonicTimestamp) :
    a.availabilityAt policy nowUs = b.availabilityAt policy nowUs := by
  simp only [register] at same
  cases ha : a.invalid <;> cases hb : b.invalid <;> simp [ha, hb] at same
  · obtain ⟨hasValue, -, timestamp⟩ := same
    simp [availabilityAt, ha, hb, hasValue, timestamp]
  · simp [availabilityAt, ha, hb]

/-- A sample that is not unavailable is shown. -/
theorem shown_of_available {a b : SignalState} (same : a.register.held = b.register.held)
    {policy : SignalFreshnessPolicy} {nowUs : MonotonicTimestamp}
    (available : a.availabilityAt policy nowUs ≠ .unavailable) :
    a.hasValue = b.hasValue ∧ a.value = b.value ∧ a.sampleTimestampUs = b.sampleTimestampUs := by
  simp only [register] at same
  cases ha : a.invalid <;> cases hb : b.invalid <;> simp [ha, hb] at same
  · exact same
  · exact absurd (by simp [availabilityAt, ha]) available

end SignalState

/-! ### What the frames of an entry offer -/

section Offers

variable {isValid : RawCanFrame → Bool} {tables : ProfileTables} {entry : DispatchEntry}
  {frame : RawCanFrame} {id : SignalId}

section

variable (wellFormed : tableWellFormed tables)
include wellFormed

/-- Two entries share neither an identifier nor a signal. -/
theorem entries_disjoint {other : DispatchEntry} (mem' : other ∈ tables.dispatch)
    (mem : entry ∈ tables.dispatch) (differ : other ≠ entry) :
    other.identifier ≠ entry.identifier ∧ ∀ id ∈ entry.outputIds, id ∉ other.outputIds := by
  obtain ⟨-, -, -, -, -, -, -, -, -, -, pairwise⟩ := wellFormed
  have symm : Std.Symm fun prior entry : DispatchEntry => prior.identifier ≠ entry.identifier ∧
      ∀ id ∈ entry.outputIds, id ∉ prior.outputIds :=
    ⟨fun _ _ h => ⟨h.1.symm, fun id hin hout => h.2 id hout hin⟩⟩
  exact pairwise.forall mem' mem differ

/-- The identifier of an entry finds that entry. -/
theorem findDispatch_of_mem (mem : entry ∈ tables.dispatch) :
    findDispatch tables entry.identifier = some entry := by
  cases hfind : findDispatch tables entry.identifier with
  | none => exact absurd (List.find?_eq_none.mp hfind entry mem) (by simp)
  | some other =>
    have identifier : other.identifier = entry.identifier := by simpa using List.find?_some hfind
    by_contra differ
    have distinct := entries_disjoint wellFormed (List.mem_of_find?_eq_some hfind) mem
      fun h => differ (by rw [h])
    exact distinct.1 identifier

/-- Every frame of an entry says something about every signal of the entry. -/
theorem decodeOf_isSome (mem : entry ∈ tables.dispatch) (owned : id ∈ entry.outputIds)
    (identifier : frame.identifier = entry.identifier) :
    (decodeOf isValid tables frame id).isSome = true := by
  have small : tables.maxDecodeResults ≤ kMaxRuntimeSignals := wellFormed.2.2.2.2.1
  unfold decodeOf
  rw [identifier, findDispatch_of_mem wellFormed mem]
  dsimp only
  rw [if_neg (not_not_intro owned)]
  split
  · rfl
  · split
    · rfl
    · rename_i list
      obtain ⟨count, bounded, outputs, nodup⟩ := not_not.mp list
      -- As many distinct outputs as the entry owns are all of them.
      have length : (entry.decoded frame tables.maxDecodeResults).1.length =
          entry.outputIds.length := by
        rw [← count]
        simp only [DispatchEntry.decoded] at bounded ⊢
        rw [List.length_take, Vector.length_toList, Nat.min_eq_left (bounded.trans small)]
      have perm := (List.subperm_of_subset nodup (by
        intro output hout
        obtain ⟨result, hresult, rfl⟩ := List.mem_map.mp hout
        exact outputs result hresult)).perm_of_length_le (by rw [List.length_map, length])
      obtain ⟨result, hresult, hid⟩ := List.mem_map.mp (perm.mem_iff.mpr owned)
      rw [Option.isSome_map, List.find?_isSome]
      exact ⟨result, hresult, by simpa using hid⟩

/-- A frame of another entry says nothing about a signal of this one. -/
theorem decodeOf_eq_none (mem : entry ∈ tables.dispatch) (owned : id ∈ entry.outputIds)
    (identifier : frame.identifier ≠ entry.identifier) :
    decodeOf isValid tables frame id = none := by
  unfold decodeOf
  cases hfind : findDispatch tables frame.identifier with
  | none => rfl
  | some other =>
    have same : other.identifier = frame.identifier := by simpa using List.find?_some hfind
    have disjoint := entries_disjoint wellFormed (List.mem_of_find?_eq_some hfind) mem
      fun h => identifier (by rw [← same, h])
    exact if_pos (disjoint.2 id owned)

end

end Offers

/-- What a frame offers to a signal of its entry. -/
def offerOf (isValid : RawCanFrame → Bool) (tables : ProfileTables) (id : SignalId)
    (frame : RawCanFrame) : MonotonicTimestamp × Option Shown :=
  (frame.timestampUs,
    SignalState.shown frame.timestampUs ((decodeOf isValid tables frame id).getD none))

/-- A call that delivers a frame or serves the deadlines. -/
def ProviderCall.Delivers : ProviderCall → Prop
  | .process _ _ => True
  | .service _ => True
  | .fault _ => False
  | .reset _ => False

/-- The frames of an entry that a run delivers, in their order. -/
def entryFrames (entry : DispatchEntry) (calls : List ProviderCall) : List RawCanFrame :=
  calls.filterMap fun call =>
    match call with
    | .process frame _ => if frame.identifier = entry.identifier then some frame else none
    | _ => none

section Runs

variable {isValid : RawCanFrame → Bool} {s : ProfileState} {entry : DispatchEntry} {id : SignalId}

/-- Without checked tables no call changes the state. -/
theorem step_of_invalid (invalid : s.validTables = false) (call : ProviderCall) :
    (s.step isValid call).1 = s := by
  cases call <;>
    simp [step, ProfileState.process, ProfileState.service, ProfileState.fault,
      ProfileState.reset, invalid]

theorem after_of_invalid (invalid : s.validTables = false) (calls : List ProviderCall) :
    Machine.after (step isValid) s calls = s := by
  induction calls with
  | nil => rfl
  | cons call calls ih =>
    change Machine.after _ (s.step isValid call).1 calls = s
    rw [step_of_invalid invalid, ih]

theorem profile_after (calls : List ProviderCall) :
    (Machine.after (step isValid) s calls).profile = s.profile := by
  induction calls generalizing s with
  | nil => rfl
  | cons call calls ih => exact ih.trans (ProfileState.profile_step isValid s call)

/-- **A run** on a signal of an entry is the offers of the frames of that entry. -/
theorem register_after (wellFormed : tableWellFormed s.tables) (valid : s.validTables = true)
    (mem : entry ∈ s.tables.dispatch) (owned : id ∈ entry.outputIds) {calls : List ProviderCall}
    (delivers : ∀ call ∈ calls, call.Delivers) :
    ((Machine.after (step isValid) s calls).signal id).register =
      ((entryFrames entry calls).map (offerOf isValid s.tables id)).foldl Register.offer
        (s.signal id).register := by
  induction calls generalizing s with
  | nil => rfl
  | cons call calls ih =>
    obtain ⟨here, later⟩ := List.forall_mem_cons.mp delivers
    have profile := ProfileState.profile_step isValid s call
    have tables := ProfileState.tables_of_profile profile
    have known : (s.tables.catalog.find id).isSome = true :=
      ((wellFormed.2.2.2.2.2.2.2.2.2.1 entry mem).2.2.2.2.1 id owned).1
    have rest := ih (s := (s.step isValid call).1) (by rwa [tables])
      ((congrArg Prod.snd profile).trans valid) (by rwa [tables]) later
    rw [tables] at rest
    refine rest.trans ?_
    cases call with
    | process frame nowUs =>
      have delivered : ((s.process isValid frame nowUs).1.signals
          (signalIndex s.tables id)).register = _ :=
        SignalState.register_congr (ProfileState.process_signal wellFormed valid known)
      rw [signal, tables]
      by_cases identifier : frame.identifier = entry.identifier
      · obtain ⟨decode, hdecode⟩ := Option.isSome_iff_exists.mp
          (@decodeOf_isSome isValid _ _ _ _ wellFormed mem owned identifier)
        have taken : entryFrames entry (.process frame nowUs :: calls) =
            frame :: entryFrames entry calls := by simp [entryFrames, identifier]
        rw [taken, List.map_cons, List.foldl_cons]
        congr 1
        refine delivered.trans ?_
        rw [hdecode, SignalState.register_deliver, offerOf, hdecode]
        rfl
      · have skipped : entryFrames entry (.process frame nowUs :: calls) =
            entryFrames entry calls := by simp [entryFrames, identifier]
        rw [skipped]
        congr 1
        refine delivered.trans ?_
        rw [decodeOf_eq_none wellFormed mem owned identifier]
        rfl
    | service nowUs =>
      have served : ((s.service nowUs).1.signals (signalIndex s.tables id)).register = _ :=
        SignalState.register_congr (ProfileState.service_signal (signalIndex s.tables id))
      rw [signal, tables]
      exact congrArg (fun r => ((entryFrames entry calls).map _).foldl Register.offer r) served
    | fault nowUs => exact here.elim
    | reset nowUs => exact here.elim

end Runs

/-- Two slots that show the same are read the same, unless the reading is unavailable. -/
theorem read_of_register {s s' : ProfileState} {id : SignalId} (profile : s'.profile = s.profile)
    (same : (s.signal id).register.held = (s'.signal id).register.held)
    (readUs : MonotonicTimestamp) :
    (s.read id readUs).map Reading.availability =
        (s'.read id readUs).map Reading.availability ∧
      ∀ reading, s.read id readUs = .ok reading → reading.availability ≠ .unavailable →
        s'.read id readUs = .ok reading ∧
          (s.signal id).sampleTimestampUs = (s'.signal id).sampleTimestampUs := by
  obtain ⟨tables, validTables, signals⟩ := s
  obtain ⟨tables', validTables', signals'⟩ := s'
  obtain ⟨rfl, rfl⟩ := Prod.mk.inj profile
  unfold signal at same ⊢
  have availability := SignalState.availabilityAt_congr same
  unfold ProfileState.read
  cases tables'.catalog.find id with
  | none => exact ⟨rfl, fun reading read => by cases read⟩
  | some metadata =>
    dsimp only
    split
    · exact ⟨rfl, fun reading read => by cases read⟩
    split
    · exact ⟨rfl, fun reading read => by cases read⟩
    split
    · exact ⟨rfl, fun reading read => by cases read⟩
    cases freshnessFor tables' id with
    | none => exact ⟨rfl, fun reading read => by cases read⟩
    | some policy =>
      refine ⟨?_, ?_⟩
      · exact congrArg Except.ok (availability policy readUs)
      · rintro reading read available
        obtain rfl := Except.ok.inj read
        obtain ⟨hasValue, value, timestamp⟩ := SignalState.shown_of_available same available
        rw [availability policy readUs, hasValue, value]
        exact ⟨rfl, timestamp⟩

/-- **Delivery order independence**: from any state over a well-formed profile, take two runs
without a fault or a reset that deliver the same frames of an entry, with distinct timestamps, in
any two orders; whatever else they deliver, and whenever. Every signal of the entry has the same
availability at every time, and the same value and timestamp unless it is unavailable. -/
theorem delivery_order_independence (isValid : RawCanFrame → Bool) (s : ProfileState)
    (wellFormed : tableWellFormed s.tables) (entry : DispatchEntry)
    (mem : entry ∈ s.tables.dispatch) (first second : List ProviderCall)
    (delivers : ∀ call ∈ first ++ second, call.Delivers)
    (perm : (entryFrames entry first).Perm (entryFrames entry second))
    (distinct : ((entryFrames entry first).map RawCanFrame.timestampUs).Nodup)
    (id : SignalId) (owned : id ∈ entry.outputIds) (readUs : MonotonicTimestamp) :
    let s₁ := Machine.after (step isValid) s first
    let s₂ := Machine.after (step isValid) s second
    (s₁.read id readUs).map Reading.availability =
        (s₂.read id readUs).map Reading.availability ∧
      ∀ reading, s₁.read id readUs = .ok reading → reading.availability ≠ .unavailable →
        s₂.read id readUs = .ok reading ∧
          (s₁.signal id).sampleTimestampUs = (s₂.signal id).sampleTimestampUs := by
  intro s₁ s₂
  apply read_of_register ((profile_after second).trans (profile_after first).symm)
  cases valid : s.validTables with
  | false =>
    rw [after_of_invalid valid, after_of_invalid valid]
  | true =>
    have delivers₁ : ∀ call ∈ first, call.Delivers :=
      fun call hcall => delivers call (List.mem_append_left _ hcall)
    have delivers₂ : ∀ call ∈ second, call.Delivers :=
      fun call hcall => delivers call (List.mem_append_right _ hcall)
    have stamps : ((entryFrames entry first).map (offerOf isValid s.tables id)).map Prod.fst =
        (entryFrames entry first).map RawCanFrame.timestampUs := by
      rw [List.map_map]
      rfl
    change ((Machine.after _ s first).signal id).register.held =
      ((Machine.after _ s second).signal id).register.held
    rw [register_after wellFormed valid mem owned delivers₁,
      register_after wellFormed valid mem owned delivers₂,
      Register.foldl_offer_perm _ (perm.map _) (by rwa [stamps])]

/-- The lamp is lit and put out by two frames, whichever of them is delivered first. -/
theorem delivery_order_independence_lamp :
    let lit : RawCanFrame := { timestampUs := 10, identifier := 0x201, dlc := 1,
                               data := #v[1, 0, 0, 0, 0, 0, 0, 0] }
    let out : RawCanFrame := { timestampUs := 20, identifier := 0x201, dlc := 1 }
    let after := Machine.after (step fun _ => true) (.create lampProfile true)
    ((after [.process lit 21, .process out 22]).read ⟨1⟩ 5000).map Reading.availability =
      ((after [.process out 21, .service 22, .process lit 23]).read ⟨1⟩ 5000).map
        Reading.availability := by
  intro lit out after
  refine (delivery_order_independence (fun _ => true) (.create lampProfile true)
    (by decide : tableWellFormed lampProfile) _ (List.mem_singleton_self _)
    [.process lit 21, .process out 22] [.process out 21, .service 22, .process lit 23] ?_
    (List.Perm.swap _ _ _) ?_ ⟨1⟩ (List.mem_singleton_self _) 5000).1
  · simp [ProviderCall.Delivers]
  · change [10, 20].Nodup
    decide

end AccessoryController.ProfileRuntime
