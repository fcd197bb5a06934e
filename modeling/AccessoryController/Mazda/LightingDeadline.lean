import AccessoryController.Library.History
import AccessoryController.Library.Machine
import AccessoryController.Mazda.Lighting
import AccessoryController.VehicleCore.DocumentedSlot

/-!
# No lit command outlives its evidence

A published command is lit only by readings that are usable at the time of the publication, and its
deadline is no later than theirs and that of the transport's silence. Offers that the sink refuses
are made again, so that the sink keeps what was computed last.

## Main definitions

* `lightingEvidence`: the deadlines of what lights a command
* `LightingCall`, `LightingState.step`: the publications as the inputs of a machine
* `LightingRecord`: what a run offered, and what it computed

## Main results

* `validUntilUs_eq`: a command does not outlive its evidence
* `follows_step`: one call keeps the state in step with its run
* `lighting_deadline`: the law of the lighting output
-/

namespace AccessoryController.Mazda

open VehicleCore
open VehicleCore.SignalSlots
open Candidate

variable {Signal : Type → Type} [SignalSlots Signal]

/-! ### Evidence -/

/-- The time until which the value of a slot is fresh, where that is bounded. -/
def freshUntil {T : Type} (signal : Signal T) : Option MonotonicTimestamp :=
  (freshnessTimeoutUs signal).map (saturatingAdd (lastUpdateUs signal))

/-- The deadlines of the readings that light a command, and of the transport's silence. -/
def lightingEvidence (state : VehicleState Signal)
    (lastTransportReceiveUs : Option MonotonicTimestamp) (silenceTimeoutUs : Microseconds)
    (update : LightingUpdate) : List MonotonicTimestamp :=
  (if update.turn ≠ .unknown then (freshUntil state.turnState).toList else []) ++
    (if update.brakePressed then (freshUntil state.brakePressed).toList else []) ++
    (lastTransportReceiveUs.map fun received => saturatingAdd received silenceTimeoutUs).toList

/-- A reading is usable if it has a value that is fresh, or whose freshness is not verified. -/
def UsableReading {T : Type} (reading : Reading T) : Prop :=
  reading.value.isSome = true ∧
    (reading.availability = .fresh ∨ reading.availability = .freshnessUnverified)

/-- A reading that is available comes from a slot with a value, under a transport that is up. -/
theorem hasValue_of_available {T : Type} {state : VehicleState Signal} {signal : Signal T}
    {identifier : ℕ} {nowUs : MonotonicTimestamp} {validation : ValidationStatus}
    {transport : TransportHealth}
    (available :
      (state.readingAt signal identifier nowUs validation transport).availability = .fresh ∨
        (state.readingAt signal identifier nowUs validation transport).availability =
          .freshnessUnverified) :
    hasValue signal = true ∧ ¬transportDown transport := by
  unfold VehicleState.readingAt snapshot statusAt at available
  split at available
  · rcases available with h | h <;> cases h
  next up =>
    split at available
    · rcases available with h | h <;> cases h
    next value =>
      refine ⟨?_, up⟩
      simpa using value

/-- A deadline is the earliest of a list. -/
structure Earliest (deadline : Option MonotonicTimestamp) (evidence : List MonotonicTimestamp) :
    Prop where
  le : ∀ x ∈ evidence, ∃ d, deadline = some d ∧ d ≤ x
  mem : ∀ d, deadline = some d → d ∈ evidence

theorem Earliest.toList (deadline : Option MonotonicTimestamp) :
    Earliest deadline deadline.toList :=
  ⟨fun x mem => ⟨x, Option.mem_toList.mp mem, Nat.le_refl x⟩, fun _ => Option.mem_toList.mpr⟩

variable {evidence : List MonotonicTimestamp} {deadline : Option MonotonicTimestamp}

theorem Earliest.earlier (earliest : Earliest deadline evidence) (other : MonotonicTimestamp) :
    Earliest (earlier deadline other) (evidence ++ [other]) := by
  constructor
  · intro x mem
    refine ⟨_, rfl, ?_⟩
    rcases List.mem_append.mp mem with mem | mem
    · obtain ⟨d, rfl, le⟩ := earliest.le x mem
      exact (Nat.min_le_left d other).trans le
    · obtain rfl := List.mem_singleton.mp mem
      cases deadline with
      | none => exact Nat.le_refl x
      | some d => exact Nat.min_le_right d x
  · intro d hd
    obtain rfl := Option.some.inj hd
    cases hdeadline : deadline with
    | none => exact List.mem_append_right _ (List.mem_singleton_self _)
    | some d =>
      rcases Nat.le_total d other with le | le
      · exact List.mem_append_left _ (earliest.mem _ (hdeadline.trans
          (congrArg some (Nat.min_eq_left le).symm)))
      · exact List.mem_append_right _ (List.mem_singleton.mpr (Nat.min_eq_right le))

/-- The deadline of an optional further reading. -/
theorem Earliest.optional (earliest : Earliest deadline evidence)
    (other : Option MonotonicTimestamp) :
    Earliest (other.elim deadline (Mazda.earlier deadline)) (evidence ++ other.toList) := by
  cases other with
  | none =>
    rw [Option.toList_none, List.append_nil]
    exact earliest
  | some other => exact earliest.earlier other

/-! ### The command -/

section Command

variable [Inhabited HealthObservation]

variable (state : VehicleState Signal) (transport : TransportHealth)
  (lastTransportReceiveUs : Option MonotonicTimestamp) (silenceTimeoutUs : Microseconds)
  (nowUs : MonotonicTimestamp)

/-- A turn is published only from a usable reading. -/
theorem turn_usable
    (lit : (lightingUpdate state transport lastTransportReceiveUs silenceTimeoutUs nowUs).turn ≠
      .unknown) :
    let reading := state.readingAt state.turnState kTurnSwitchId nowUs .reference transport
    reading.value = some (lightingUpdate state transport lastTransportReceiveUs silenceTimeoutUs
      nowUs).turn ∧ UsableReading reading := by
  intro reading
  unfold lightingUpdate at lit ⊢
  change (if (isAvailableReading reading && _ && _ && _ && _) = true then _ else _) ≠ _ at lit
  change reading.value = some (if (isAvailableReading reading && _ && _ && _ && _) = true then
    reading.value.getD .unknown else .unknown) ∧ _
  split at lit
  next actionable =>
    rw [if_pos actionable]
    simp only [Bool.and_eq_true] at actionable
    obtain ⟨⟨⟨⟨available, -⟩, -⟩, -⟩, -⟩ := actionable
    unfold isAvailableReading at available
    simp only [Bool.and_eq_true, Bool.or_eq_true, beq_iff_eq] at available
    refine ⟨?_, available⟩
    obtain ⟨turn, hturn⟩ := Option.isSome_iff_exists.mp available.1
    rw [hturn]
    rfl
  next => exact absurd rfl lit

/-- The brake is published as lit only from a fresh reading. -/
theorem brake_usable
    (lit : (lightingUpdate state transport lastTransportReceiveUs silenceTimeoutUs
      nowUs).brakePressed = true) :
    let reading := state.readingAt state.brakePressed kBrakePedalId nowUs .confirmed transport
    reading.value = some true ∧ reading.availability = .fresh := by
  intro reading
  unfold lightingUpdate at lit
  rw [Bool.and_eq_true, beq_iff_eq, beq_iff_eq] at lit
  exact ⟨lit.2, lit.1⟩

omit [Inhabited HealthObservation] in
/-- The deadline of a command is the earliest of its evidence, or that of the next heartbeat. -/
theorem lightingDeadline_eq {actionable brakePressed : Bool}
    (turn : actionable = true → hasValue state.turnState = true)
    (brake : brakePressed = true → hasValue state.brakePressed = true) :
    ∃ earliest, lightingDeadline state actionable brakePressed lastTransportReceiveUs
        silenceTimeoutUs nowUs = earliest.getD (saturatingAdd nowUs kLightingHeartbeatUs) ∧
      Earliest earliest
        ((if actionable then freshUntil state.turnState else none).toList ++
          (if brakePressed then freshUntil state.brakePressed else none).toList ++
          (lastTransportReceiveUs.map fun received =>
            saturatingAdd received silenceTimeoutUs).toList) := by
  refine ⟨_, ?_, ((Earliest.toList _).optional _).optional _⟩
  unfold lightingDeadline
  have hturn : (actionable && hasValue state.turnState) = actionable := by
    cases actionable with
    | false => rfl
    | true => rw [turn rfl]; rfl
  have hbrake : (brakePressed && hasValue state.brakePressed) = brakePressed := by
    cases brakePressed with
    | false => rfl
    | true => rw [brake rfl]; rfl
  rw [hturn, hbrake]
  unfold freshUntil
  cases brakePressed <;> cases freshnessTimeoutUs state.brakePressed <;>
    cases lastTransportReceiveUs <;> rfl

/-- **A command does not outlive its evidence**: its deadline is the earliest of its evidence, or
the time of the publication if that has passed. -/
theorem validUntilUs_eq :
    let update := lightingUpdate state transport lastTransportReceiveUs silenceTimeoutUs nowUs
    ∃ earliest, update.validUntilUs =
        max nowUs (earliest.getD (saturatingAdd nowUs kLightingHeartbeatUs)) ∧
      Earliest earliest (lightingEvidence state lastTransportReceiveUs silenceTimeoutUs update) := by
  intro update
  have turn : update.turn ≠ .unknown → hasValue state.turnState = true := fun lit =>
    (hasValue_of_available (turn_usable _ _ _ _ _ lit).2.2).1
  have brake : update.brakePressed = true → hasValue state.brakePressed = true := fun lit =>
    (hasValue_of_available (Or.inl (brake_usable _ _ _ _ _ lit).2)).1
  let reading := state.readingAt state.turnState kTurnSwitchId nowUs .reference transport
  let actionable := isAvailableReading reading && reading.value != some .unknown &&
    transport != .stopped && transport != .faulted && transport != .timedOut
  have published : update.turn = if actionable then reading.value.getD .unknown else .unknown := rfl
  -- the turn is known exactly if it is actionable
  have known : update.turn ≠ .unknown ↔ actionable = true := by
    rw [published]
    constructor
    · intro lit
      by_contra inert
      rw [if_neg inert] at lit
      exact lit rfl
    · intro acts
      rw [if_pos acts]
      simp only [actionable, Bool.and_eq_true, bne_iff_ne, isAvailableReading] at acts
      obtain ⟨turn, hturn⟩ := Option.isSome_iff_exists.mp acts.1.1.1.1.1
      rw [hturn] at acts ⊢
      exact fun same => acts.1.1.1.2 (congrArg some same)
  obtain ⟨earliest, hdeadline, hearliest⟩ := lightingDeadline_eq state lastTransportReceiveUs
    silenceTimeoutUs nowUs (fun acts => turn (known.mpr acts)) brake
  refine ⟨earliest, ?_, ?_⟩
  · rw [← hdeadline]
    change (if lightingDeadline state actionable update.brakePressed _ _ _ ≤ nowUs then _ else _) = _
    split
    next passed => exact (Nat.max_eq_left passed).symm
    next ahead => exact (Nat.max_eq_right (Nat.le_of_not_le ahead)).symm
  · unfold lightingEvidence
    have spread : ∀ (p : Prop) [Decidable p] (o : Option MonotonicTimestamp),
        (if p then o.toList else []) = (if p then o else none).toList := by
      intro p _ o
      split <;> rfl
    rw [spread, spread]
    simpa only [known] using hearliest

end Command

/-! ### Runs -/

/-- The calls that reach the lighting output, with the answers of the sink. -/
inductive LightingCall (Signal : Type → Type) [SignalSlots Signal]
  | startupBlack (nowUs : MonotonicTimestamp) (accepted : Bool)
  | reset
  | publish (state : VehicleState Signal) (transport : TransportHealth)
    (lastTransportReceiveUs : Option MonotonicTimestamp) (silenceTimeoutUs : Microseconds)
    (nowUs : MonotonicTimestamp) (accepted : Bool)

/-- What a command says, apart from its deadline. -/
def LightingUpdate.levels (update : LightingUpdate) :
    TurnState × Availability × Bool × Availability :=
  (update.turn, update.availability, update.brakePressed, update.brakeAvailability)

def LightingState.levels (lighting : LightingState) :
    TurnState × Availability × Bool × Availability :=
  (lighting.turn, lighting.availability, lighting.brakePressed, lighting.brakeAvailability)

/-- The calls of a run with their offers. -/
abbrev LightingRecord (Signal : Type → Type) [SignalSlots Signal] :=
  List (LightingCall Signal × Option (LightingUpdate × Bool))

variable {h : LightingRecord Signal}

namespace LightingRecord

def lastOffer (h : LightingRecord Signal) : Option (LightingUpdate × Bool) :=
  (h.filterMap Prod.snd).getLast?

def lastAccepted (h : LightingRecord Signal) : Option LightingUpdate :=
  ((h.filterMap Prod.snd).filter Prod.snd).getLast?.map Prod.fst

/-- An offer that was accepted last is the last that was accepted. -/
theorem lastAccepted_of_lastOffer {update : LightingUpdate}
    (last : h.lastOffer = some (update, true)) : h.lastAccepted = some update := by
  unfold lastOffer at last
  unfold lastAccepted
  generalize h.filterMap Prod.snd = offers at last
  obtain ⟨earlier, rfl⟩ := List.getLast?_eq_some_iff.mp last
  rw [List.filter_append, List.filter_cons_of_pos rfl]
  exact congrArg (Option.map Prod.fst) List.getLast?_concat

end LightingRecord

section Runs

variable [Inhabited HealthObservation]

/-- The command that a call computes. -/
def LightingCall.update : LightingCall Signal → Option LightingUpdate
  | .startupBlack nowUs _ => some { validUntilUs := nowUs }
  | .reset => none
  | .publish state transport lastTransportReceiveUs silenceTimeoutUs nowUs _ =>
    some (lightingUpdate state transport lastTransportReceiveUs silenceTimeoutUs nowUs)

/-- One call, with the offer that it makes and the sink's answer. -/
def LightingState.step (lighting : LightingState) :
    LightingCall Signal → LightingState × Option (LightingUpdate × Bool)
  | .startupBlack nowUs accepted =>
    (.publishStartupBlack accepted nowUs, some ({ validUntilUs := nowUs }, accepted))
  | .reset => ({ lighting with sent := false, failure := false }, none)
  | .publish state transport lastTransportReceiveUs silenceTimeoutUs nowUs accepted =>
    let published := lighting.publishLighting
      (lightingUpdate state transport lastTransportReceiveUs silenceTimeoutUs nowUs) accepted nowUs
    (published.1, published.2.map fun update => (update, accepted))

/-- The command of the latest call that computes one. -/
def LightingRecord.lastComputed (h : LightingRecord Signal) : Option LightingUpdate :=
  (h.filterMap fun entry => entry.1.update).getLast?

/-- A state is in step with its run: what was offered last is what was computed last, and the state
remembers it with the sink's answer. -/
structure Follows (lighting : LightingState) (h : LightingRecord Signal) : Prop where
  computed : h.lastOffer.map (fun offer => offer.1.levels) =
    h.lastComputed.map LightingUpdate.levels
  remembered : lighting.sent = true → ∃ update, h.lastOffer = some (update, !lighting.failure) ∧
    update.levels = lighting.levels

theorem follows_start : Follows ({} : LightingState) ([] : LightingRecord Signal) :=
  ⟨rfl, nofun⟩

/-- An offer of what was computed is remembered. -/
theorem Follows.offered {call : LightingCall Signal} {update : LightingUpdate}
    (computes : call.update = some update) (h : LightingRecord Signal) (accepted : Bool)
    (nowUs : MonotonicTimestamp) :
    Follows (.offered update accepted nowUs) (h ++ [(call, some (update, accepted))]) := by
  have last : LightingRecord.lastOffer (h ++ [(call, some (update, accepted))]) =
      some (update, accepted) := History.getLast?_filterMap_snoc _ h _
  have latest : LightingRecord.lastComputed (h ++ [(call, some (update, accepted))]) =
      some update := by
    unfold LightingRecord.lastComputed
    rw [History.getLast?_filterMap_snoc, computes]
    rfl
  refine ⟨?_, fun _ => ⟨update, ?_, rfl⟩⟩
  · rw [last, latest]
    rfl
  · rw [last]
    unfold LightingState.offered
    rw [Bool.not_not]

/-- **One call keeps a state in step with its run.** -/
theorem follows_step {lighting : LightingState} (follows : Follows lighting h)
    (call : LightingCall Signal) :
    Follows (lighting.step call).1 (h ++ [(call, (lighting.step call).2)]) := by
  have quiet : LightingRecord.lastOffer (h ++ [(call, none)]) = h.lastOffer :=
    History.getLast?_filterMap_snoc _ h _
  cases call with
  | startupBlack nowUs accepted => exact Follows.offered rfl h accepted nowUs
  | reset =>
    have silent : LightingRecord.lastComputed (h ++ [(.reset, none)]) = h.lastComputed :=
      History.getLast?_filterMap_snoc _ h _
    refine ⟨?_, fun sent => absurd sent Bool.false_ne_true⟩
    unfold LightingState.step
    rw [quiet, silent]
    exact follows.computed
  | publish state transport received silence nowUs accepted =>
    unfold LightingState.step LightingState.publishLighting
    dsimp only
    split
    next steady =>
      -- a command that is not offered repeats the last one, which was accepted
      simp only [Bool.and_eq_true, Bool.not_eq_true', Bool.or_eq_false_iff, bne_eq_false_iff_eq,
        Bool.not_eq_false'] at steady
      obtain ⟨⟨⟨⟨⟨⟨sent, turn⟩, availability⟩, brake⟩, brakeAvailability⟩, -⟩, -⟩ := steady
      obtain ⟨update, last, levels⟩ := follows.remembered sent
      refine ⟨?_, fun _ => ⟨update, ?_, levels⟩⟩
      · have latest : LightingRecord.lastComputed
            (h ++ [(.publish state transport received silence nowUs accepted, none)]) =
              some (lightingUpdate state transport received silence nowUs) :=
          History.getLast?_filterMap_snoc _ h _
        rw [Option.map_none, quiet, latest, last, Option.map_some, Option.map_some, levels]
        unfold LightingState.levels LightingUpdate.levels
        rw [turn, availability, brake, brakeAvailability]
      · rw [Option.map_none, quiet, last]
    next => exact Follows.offered rfl h accepted nowUs

/-- After a refused offer the next call that computes a command offers it. -/
theorem offers_of_refused {lighting : LightingState} (follows : Follows lighting h)
    {refused : LightingUpdate} (last : h.lastOffer = some (refused, false))
    {call : LightingCall Signal} {update : LightingUpdate} (computes : call.update = some update) :
    (lighting.step call).2.map Prod.fst = some update := by
  cases call with
  | startupBlack nowUs accepted => exact computes
  | reset => cases computes
  | publish state transport received silence nowUs accepted =>
    obtain rfl := Option.some.inj computes
    have again : lighting.sent = false ∨ lighting.failure = true := by
      cases sent : lighting.sent with
      | false => exact Or.inl rfl
      | true =>
        obtain ⟨update, same, -⟩ := follows.remembered sent
        rw [last] at same
        have answer := congrArg Prod.snd (Option.some.inj same)
        exact Or.inr (by simpa using answer.symm)
    unfold LightingState.step LightingState.publishLighting
    rcases again with sent | failure
    · simp [sent]
    · simp [failure]

/-- **The lighting deadline.** A turn is published only from a usable reading and the brake only
from a fresh one; the deadline of a command is the time of its publication or the earliest
deadline of its evidence, whichever is later. In every run, an offer that was accepted last has the
sink show what was computed last; after an offer that was refused, the next call offers again. -/
theorem lighting_deadline :
    (∀ (state : VehicleState Signal) (transport : TransportHealth)
      (lastTransportReceiveUs : Option MonotonicTimestamp) (silenceTimeoutUs : Microseconds)
      (nowUs : MonotonicTimestamp),
      let update := lightingUpdate state transport lastTransportReceiveUs silenceTimeoutUs nowUs
      let turn := state.readingAt state.turnState kTurnSwitchId nowUs .reference transport
      let brake := state.readingAt state.brakePressed kBrakePedalId nowUs .confirmed transport
      (update.turn ≠ .unknown → turn.value = some update.turn ∧ UsableReading turn) ∧
        (update.brakePressed = true → brake.value = some true ∧ UsableReading brake) ∧
        (∀ deadline ∈ lightingEvidence state lastTransportReceiveUs silenceTimeoutUs update,
          update.validUntilUs ≤ max nowUs deadline) ∧
        (lightingEvidence state lastTransportReceiveUs silenceTimeoutUs update = [] →
          update.validUntilUs ≤ max nowUs (saturatingAdd nowUs kLightingHeartbeatUs))) ∧
    ∀ calls : List (LightingCall Signal),
      let lighting := Machine.after LightingState.step {} calls
      let h : LightingRecord Signal := Machine.trace LightingState.step {} calls
      (∀ update, h.lastOffer = some (update, true) →
        ∃ kept latest, h.lastAccepted = some kept ∧ h.lastComputed = some latest ∧
          kept.levels = latest.levels) ∧
      ∀ refused, h.lastOffer = some (refused, false) →
        ∀ (call : LightingCall Signal) (update : LightingUpdate), call.update = some update →
          (lighting.step call).2.map Prod.fst = some update := by
  constructor
  · intro state transport received silence nowUs update turn brake
    obtain ⟨earliest, until_eq, hearliest⟩ := validUntilUs_eq state transport received silence nowUs
    refine ⟨turn_usable state transport received silence nowUs, fun lit => ?_, fun deadline mem => ?_,
      fun none_known => ?_⟩
    · obtain ⟨value, fresh⟩ := brake_usable state transport received silence nowUs lit
      exact ⟨value, by rw [value]; rfl, Or.inl fresh⟩
    · obtain ⟨d, hd, le⟩ := hearliest.le deadline mem
      rw [until_eq, hd]
      exact max_le_max_left nowUs le
    · rw [until_eq]
      cases earliest with
      | none => exact Nat.le_refl _
      | some d =>
        have mem := hearliest.mem d rfl
        rw [none_known] at mem
        cases mem
  · intro calls lighting h
    have follows : Follows lighting h :=
      Machine.invariant follows_start (fun _ _ call follows => follows_step follows call) calls
    refine ⟨fun update last => ?_, fun refused last call update computes =>
      offers_of_refused follows last computes⟩
    have same := follows.computed
    rw [last, Option.map_some] at same
    obtain ⟨latest, hlatest, levels⟩ := Option.map_eq_some_iff.mp same.symm
    exact ⟨update, latest, LightingRecord.lastAccepted_of_lastOffer last, hlatest, levels.symm⟩

end Runs

/-! ## A run over a documented slot -/

local instance noObservation : Inhabited HealthObservation :=
  ⟨⟨.stopped, .unknown, .noData, false, 0, false, 0, none⟩⟩

/-- A turn to the left that is fresh until 110. -/
def leftTurn : VehicleState DocumentedSlot :=
  { turnState :=
      { value := .left, hasValue := true, lastUpdateUs := 10, freshnessTimeoutUs := some 100 } }

/-- The turn is lit until 110, and offered again when the sink has refused it. -/
theorem lighting_deadline_left :
    (lightingUpdate leftTurn .live (some 20) 500 50).validUntilUs ≤ 110 ∧
      ((Machine.after LightingState.step {} [.publish leftTurn .live (some 20) 500 50 false]).step
        (.publish leftTurn .live (some 20) 500 60 true)).2.map Prod.fst =
          some (lightingUpdate leftTurn .live (some 20) 500 60) := by
  constructor
  · exact (lighting_deadline.1 leftTurn .live (some 20) 500 50).2.2.1 110 (by decide)
  · exact (lighting_deadline.2 [.publish leftTurn .live (some 20) 500 50 false]).2 _ rfl _ _ rfl

end AccessoryController.Mazda
