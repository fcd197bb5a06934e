import AccessoryController.Mazda.NotificationDescriptors

/-!
# The slots of the decoders

Every signal of the vehicle state belongs to one message. A decoder writes the slots of its
message only, from its frame and from what these slots held, and leaves the records to the
observation of the frame.

## Main definitions

* `VehicleSlot`: the signals of the state, with the message of each
* `Candidate.Confined`: an application that reads and writes the slots of one message
* `Candidate.Handling`: how a decoder takes a frame up

## Main results

* `Candidate.decode_handles`: decoding is an observation, followed by a confined application when
  the frame decoded and was accepted
-/

namespace AccessoryController.Mazda

open VehicleCore VehicleState
open VehicleCore.SignalSlots
open Candidate

/-- The signals of the vehicle state. -/
inductive VehicleSlot
  | speedKph | engineRpm | acceleratorPedalPosition | brakePressureBar
  | longitudinalAccelerationMps2 | lateralAccelerationMps2 | selectorPosition | actualGear
  | turnState | hazardRequest | leftTurnRequest | rightTurnRequest | brakePressed | liftgateOpen
  | rearRightDoorOpen | rearLeftDoorOpen | frontLeftDoorOpenRhd | frontRightDoorOpenRhd
  | doorsUnlocked | leftIndicatorLamp | rightIndicatorLamp | wiperLow | frontWiper
  deriving DecidableEq, Repr

namespace VehicleSlot

/-- The values of a signal. -/
def Value : VehicleSlot → Type
  | .speedKph | .engineRpm | .acceleratorPedalPosition | .brakePressureBar
  | .longitudinalAccelerationMps2 | .lateralAccelerationMps2 => Binary32
  | .selectorPosition => SelectorPosition
  | .actualGear => ActualGear
  | .turnState => TurnState
  | .frontWiper => FrontWiperPosition
  | _ => Bool

/-- The message that carries a signal. -/
def identifier : VehicleSlot → ℕ
  | .speedKph | .engineRpm | .acceleratorPedalPosition => kEngineDataId
  | .brakePressureBar | .longitudinalAccelerationMps2 | .lateralAccelerationMps2 =>
    kAccelerationId
  | .selectorPosition | .actualGear => kGearId
  | .turnState | .hazardRequest | .leftTurnRequest | .rightTurnRequest | .frontWiper =>
    kTurnSwitchId
  | .brakePressed => kBrakePedalId
  | .liftgateOpen | .rearRightDoorOpen | .rearLeftDoorOpen | .frontLeftDoorOpenRhd
  | .frontRightDoorOpenRhd | .doorsUnlocked => kDoorsId
  | .leftIndicatorLamp | .rightIndicatorLamp | .wiperLow => kBlinkInfoId

end VehicleSlot

/-- The messages that have a decoder. -/
def ownedIdentifiers : List ℕ :=
  [kEngineDataId, kGearId, kDoorsId, kBlinkInfoId, kTurnSwitchId, kBrakePedalId, kAccelerationId]

variable {Signal : Type → Type} [SignalSlots Signal]

/-- The slot of a signal. -/
def VehicleState.slot (state : VehicleState Signal) : (slot : VehicleSlot) → Signal slot.Value
  | .speedKph => state.speedKph
  | .engineRpm => state.engineRpm
  | .acceleratorPedalPosition => state.acceleratorPedalPosition
  | .brakePressureBar => state.brakePressureBar
  | .longitudinalAccelerationMps2 => state.longitudinalAccelerationMps2
  | .lateralAccelerationMps2 => state.lateralAccelerationMps2
  | .selectorPosition => state.selectorPosition
  | .actualGear => state.actualGear
  | .turnState => state.turnState
  | .hazardRequest => state.hazardRequest
  | .leftTurnRequest => state.leftTurnRequest
  | .rightTurnRequest => state.rightTurnRequest
  | .brakePressed => state.brakePressed
  | .liftgateOpen => state.liftgateOpen
  | .rearRightDoorOpen => state.rearRightDoorOpen
  | .rearLeftDoorOpen => state.rearLeftDoorOpen
  | .frontLeftDoorOpenRhd => state.frontLeftDoorOpenRhd
  | .frontRightDoorOpenRhd => state.frontRightDoorOpenRhd
  | .doorsUnlocked => state.doorsUnlocked
  | .leftIndicatorLamp => state.leftIndicatorLamp
  | .rightIndicatorLamp => state.rightIndicatorLamp
  | .wiperLow => state.wiperLow
  | .frontWiper => state.frontWiper

@[simp] theorem VehicleState.slot_setRecord (state : VehicleState Signal)
    (index : Fin kTrackedMessageCapacity) (record : MessageHealthState) (slot : VehicleSlot) :
    (state.setRecord index record).slot slot = state.slot slot := by
  cases slot <;> rfl

namespace Candidate

@[simp] theorem slot_touch (frame : RawCanFrame) (result : VehicleState Signal × Bool)
    (slot : VehicleSlot) : (touch frame result).slot slot = result.1.slot slot := by
  rw [touch]
  split
  · cases slot <;> rfl
  · rfl

/-! ### The applications -/

/-- An application of frames that writes the slots of one message, from the frame and from what
these slots held, and leaves the records alone. -/
structure Confined (identifier : ℕ)
    (apply : RawCanFrame → VehicleState Signal → VehicleState Signal × Bool) : Prop where
  records : ∀ frame state, (apply frame state).1.messageHealth = state.messageHealth
  frame : ∀ frame state (slot : VehicleSlot), slot.identifier ≠ identifier →
    (apply frame state).1.slot slot = state.slot slot
  reads : ∀ frame (state state' : VehicleState Signal),
    (∀ slot : VehicleSlot, slot.identifier = identifier → state.slot slot = state'.slot slot) →
    ∀ slot : VehicleSlot, slot.identifier = identifier →
      (apply frame state).1.slot slot = (apply frame state').1.slot slot

theorem confined_engineData : @Confined Signal _ kEngineDataId applyEngineData := by
  refine ⟨fun _ _ => rfl, ?_, ?_⟩
  · intro frame state slot other
    cases slot
    case speedKph | engineRpm | acceleratorPedalPosition => exact absurd rfl other
    all_goals rfl
  · intro frame state state' same slot own
    have speed : state.speedKph = state'.speedKph := same .speedKph rfl
    have rpm : state.engineRpm = state'.engineRpm := same .engineRpm rfl
    have accelerator : state.acceleratorPedalPosition = state'.acceleratorPedalPosition :=
      same .acceleratorPedalPosition rfl
    cases slot
    case speedKph | engineRpm | acceleratorPedalPosition =>
      simp only [slot, applyEngineData, speed, rpm, accelerator]
      rfl
    all_goals exact absurd own (by decide)

theorem confined_gear : @Confined Signal _ kGearId applyGear := by
  refine ⟨fun _ _ => rfl, ?_, ?_⟩
  · intro frame state slot other
    cases slot
    case selectorPosition | actualGear => exact absurd rfl other
    all_goals rfl
  · intro frame state state' same slot own
    have selector : state.selectorPosition = state'.selectorPosition :=
      same .selectorPosition rfl
    have gear : state.actualGear = state'.actualGear := same .actualGear rfl
    cases slot
    case selectorPosition | actualGear =>
      simp only [slot, applyGear, selector, gear]
      rfl
    all_goals exact absurd own (by decide)

theorem confined_doors : @Confined Signal _ kDoorsId applyDoors := by
  refine ⟨fun _ _ => rfl, ?_, ?_⟩
  · intro frame state slot other
    cases slot
    case liftgateOpen | rearRightDoorOpen | rearLeftDoorOpen | frontLeftDoorOpenRhd |
      frontRightDoorOpenRhd | doorsUnlocked => exact absurd rfl other
    all_goals rfl
  · intro frame state state' same slot own
    -- Each door slot takes one bit of the frame and depends on nothing but itself.
    have held := same slot own
    cases slot
    case liftgateOpen | rearRightDoorOpen | rearLeftDoorOpen | frontLeftDoorOpenRhd |
        frontRightDoorOpenRhd | doorsUnlocked =>
      simp only [slot] at held
      simp only [slot, applyDoors, held]
      rfl
    all_goals exact absurd own (by decide)

theorem confined_blinkInfo : @Confined Signal _ kBlinkInfoId applyBlinkInfo := by
  refine ⟨fun _ _ => rfl, ?_, ?_⟩
  · intro frame state slot other
    cases slot
    case leftIndicatorLamp | rightIndicatorLamp | wiperLow => exact absurd rfl other
    all_goals rfl
  · intro frame state state' same slot own
    have held := same slot own
    cases slot
    case leftIndicatorLamp | rightIndicatorLamp | wiperLow =>
      simp only [slot] at held
      simp only [slot, applyBlinkInfo, held]
      rfl
    all_goals exact absurd own (by decide)

theorem confined_brakePedal : @Confined Signal _ kBrakePedalId applyBrakePedal := by
  refine ⟨fun _ _ => rfl, ?_, ?_⟩
  · intro frame state slot other
    cases slot
    case brakePressed => exact absurd rfl other
    all_goals rfl
  · intro frame state state' same slot own
    have held := same slot own
    cases slot
    case brakePressed =>
      simp only [slot] at held
      simp only [slot, applyBrakePedal, held]
      rfl
    all_goals exact absurd own (by decide)

/-- The acceleration slots take up three numbers that depend on the frame alone. -/
theorem applyAcceleration_eq (frame : RawCanFrame) :
    ∃ longitudinal lateral pressureBar : Binary32, ∀ state : VehicleState Signal,
      (applyAcceleration frame state).1 =
        { state with
          longitudinalAccelerationMps2 :=
            (update state.longitudinalAccelerationMps2 longitudinal frame.timestampUs).1
          lateralAccelerationMps2 :=
            (update state.lateralAccelerationMps2 lateral frame.timestampUs).1
          brakePressureBar :=
            (if pressureBar.lt (toFloat 0) then
              invalidate state.brakePressureBar frame.timestampUs
            else update state.brakePressureBar pressureBar frame.timestampUs).1 } :=
  ⟨_, _, _, fun _ => rfl⟩

theorem confined_acceleration : @Confined Signal _ kAccelerationId applyAcceleration := by
  refine ⟨?_, ?_, ?_⟩
  · intro frame state
    obtain ⟨longitudinal, lateral, pressureBar, writes⟩ := @applyAcceleration_eq Signal _
      frame
    rw [writes]
  · intro frame state slot other
    obtain ⟨longitudinal, lateral, pressureBar, writes⟩ := @applyAcceleration_eq Signal _
      frame
    rw [writes]
    cases slot
    case brakePressureBar | longitudinalAccelerationMps2 | lateralAccelerationMps2 =>
      exact absurd rfl other
    all_goals rfl
  · intro frame state state' same slot own
    obtain ⟨longitudinal, lateral, pressureBar, writes⟩ := @applyAcceleration_eq Signal _
      frame
    rw [writes, writes]
    have held := same slot own
    cases slot
    case brakePressureBar | longitudinalAccelerationMps2 | lateralAccelerationMps2 =>
      simp only [slot] at held
      simp only [slot, held]
      rfl
    all_goals exact absurd own (by decide)

/-- The update of the turn slot writes this slot only, from what it held. -/
theorem updateTurn_confined (turn : TurnState) (timestampUs : MonotonicTimestamp) :
    (∀ state : VehicleState Signal,
      (state.updateTurn turn timestampUs).1.messageHealth = state.messageHealth) ∧
    (∀ (state : VehicleState Signal) (slot : VehicleSlot), slot ≠ .turnState →
      (state.updateTurn turn timestampUs).1.slot slot = state.slot slot) ∧
    ∀ state state' : VehicleState Signal, state.turnState = state'.turnState →
      (state.updateTurn turn timestampUs).1.turnState =
        (state'.updateTurn turn timestampUs).1.turnState := by
  refine ⟨?_, ?_, ?_⟩
  · intro state
    dsimp only [updateTurn]
    repeat' split
    all_goals rfl
  · intro state slot other
    dsimp only [updateTurn]
    repeat' split
    all_goals cases slot
    all_goals first | rfl | exact absurd rfl other
  · intro state state' same
    simp only [updateTurn, same]
    by_cases dropped : (hasValue state'.turnState &&
        decide (timestampUs ≤ lastUpdateUs state'.turnState)) = true
    · rw [if_pos dropped, if_pos dropped]
      exact same
    · rw [if_neg dropped, if_neg dropped]
      split <;> rfl

theorem confined_turnSwitch : @Confined Signal _ kTurnSwitchId applyTurnSwitch := by
  refine ⟨?_, ?_, ?_⟩
  · intro frame state
    exact (updateTurn_confined _ _).1 state
  · intro frame state slot other
    have kept := (updateTurn_confined (turnOf frame) frame.timestampUs).2.1 state slot
    cases slot
    case turnState | hazardRequest | leftTurnRequest | rightTurnRequest | frontWiper =>
      exact absurd rfl other
    all_goals exact kept (by decide)
  · intro frame state state' same slot own
    obtain ⟨-, others, turned⟩ := @updateTurn_confined Signal _ (turnOf frame) frame.timestampUs
    -- The request slots are read after the turn slot has been updated, which leaves them alone.
    have held : ∀ slot : VehicleSlot, slot ≠ .turnState → slot.identifier = kTurnSwitchId →
        (state.updateTurn (turnOf frame) frame.timestampUs).1.slot slot =
          (state'.updateTurn (turnOf frame) frame.timestampUs).1.slot slot := by
      intro slot other own
      rw [others state slot other, others state' slot other, same slot own]
    cases slot
    case turnState => exact turned state state' (same .turnState rfl)
    case hazardRequest =>
      exact congrArg (fun signal => (update signal _ frame.timestampUs).1)
        (held .hazardRequest (by decide) rfl)
    case leftTurnRequest =>
      exact congrArg (fun signal => (update signal _ frame.timestampUs).1)
        (held .leftTurnRequest (by decide) rfl)
    case rightTurnRequest =>
      exact congrArg (fun signal => (update signal _ frame.timestampUs).1)
        (held .rightTurnRequest (by decide) rfl)
    case frontWiper =>
      exact congrArg (fun signal => (update signal _ frame.timestampUs).1)
        (held .frontWiper (by decide) rfl)
    all_goals exact absurd own (by decide)

/-! ### How a frame is taken up -/

/-- How a decoder takes a frame up: what it observes the frame as, if at all, what it answers, and
what it applies when a frame that decoded is accepted. -/
structure Handling (Signal : Type → Type) [SignalSlots Signal] where
  observed : DecodeValidity
  answer : DecodeValidity
  apply : RawCanFrame → VehicleState Signal → VehicleState Signal × Bool

/-- The state after a frame has been taken up. -/
def Handling.run (handling : Handling Signal) (frame : RawCanFrame)
    (state : VehicleState Signal) : VehicleState Signal :=
  let observation := state.observeMessage frame handling.observed
  if handling.observed = .decoded ∧ observation.2 = .accepted then
    touch frame (handling.apply frame observation.1)
  else observation.1

/-- A handling observes frames of its own message only, answers what it observes, and applies
frames to the slots of that message. -/
structure Handling.Owned (handling : Handling Signal) (frame : RawCanFrame) : Prop where
  confined : Confined frame.identifier handling.apply
  owned : handling.observed ≠ .ignored → frame.identifier ∈ ownedIdentifiers
  answers : handling.observed ≠ .ignored → handling.answer = handling.observed
  observes : handling.answer = .decoded → handling.observed = .decoded

/-- The decoding of a frame is a handling of it. -/
def Handles (frame : RawCanFrame)
    (decode : VehicleState Signal → VehicleState Signal × DecodeValidity) : Prop :=
  ∃ handling : Handling Signal, handling.Owned frame ∧
    ∀ state, decode state = (handling.run frame state, handling.answer)

theorem confined_id (identifier : ℕ) :
    @Confined Signal _ identifier fun _ state => (state, false) :=
  ⟨fun _ _ => rfl, fun _ _ _ _ => rfl, fun _ _ _ same => same⟩

/-- A frame that is left alone, whatever the answer short of a decoded frame. -/
theorem handles_unobserved (frame : RawCanFrame) {answer : DecodeValidity}
    (undecoded : answer ≠ .decoded) :
    @Handles Signal _ frame fun state => (state, answer) := by
  refine ⟨⟨.ignored, answer, fun _ state => (state, false)⟩,
    ⟨confined_id _, absurd rfl, absurd rfl, fun decoded => absurd decoded undecoded⟩, fun state => ?_⟩
  simp [Handling.run, observeMessage]

/-- A frame that is recorded as malformed. -/
theorem handles_malformed {frame : RawCanFrame} (owned : frame.identifier ∈ ownedIdentifiers) :
    @Handles Signal _ frame fun state =>
      ((state.observeMessage frame .malformed).1, .malformed) :=
  ⟨⟨.malformed, .malformed, fun _ state => (state, false)⟩,
    ⟨confined_id _, fun _ => owned, fun _ => rfl, nofun⟩, fun state => by simp [Handling.run]⟩

theorem decodeMessage_handles (isValid : RawCanFrame → Bool) {identifier : ℕ}
    {malformed : RawCanFrame → Bool}
    {apply : RawCanFrame → VehicleState Signal → VehicleState Signal × Bool}
    (confined : Confined identifier apply) (owned : identifier ∈ ownedIdentifiers)
    (frame : RawCanFrame) :
    Handles frame (decodeMessage isValid identifier malformed apply frame) := by
  unfold decodeMessage
  cases classified : classifyFrame isValid frame identifier with
  | ignored => exact handles_unobserved frame (by decide)
  | malformed =>
    by_cases own : frame.identifier = identifier
    · simpa only [recordMalformed, if_pos own] using handles_malformed (own ▸ owned)
    · simpa only [recordMalformed, if_neg own] using handles_unobserved frame (by decide)
  | decoded =>
    -- Only a frame with the identifier of the message classifies as decoded.
    have own : frame.identifier = identifier := by
      by_contra other
      unfold classifyFrame at classified
      split at classified
      · cases classified
      · rw [if_pos (Or.inl other)] at classified
        cases classified
    subst own
    by_cases faulty : malformed frame = true
    · simpa only [if_pos faulty] using handles_malformed owned
    · refine ⟨⟨.decoded, .decoded, apply⟩, ⟨confined, fun _ => owned, fun _ => rfl, fun _ => rfl⟩,
        fun state => ?_⟩
      simp only [if_neg faulty, acceptFrame, recordHealthy, ne_eq, not_true_eq_false, if_false,
        Handling.run, true_and]

/-- **Decoding a frame** is a handling of it: an observation in the record of its own message, and
for a decoded frame that was accepted an application to the slots of that message. -/
theorem decode_handles (isValid : RawCanFrame → Bool) (frame : RawCanFrame) :
    @Handles Signal _ frame (decode isValid frame) := by
  unfold decode
  split_ifs
  · exact decodeMessage_handles isValid confined_acceleration (by decide) frame
  · exact decodeMessage_handles isValid confined_engineData (by decide) frame
  · exact decodeMessage_handles isValid confined_acceleration (by decide) frame
  · exact handles_unobserved frame (by decide)
  · exact decodeMessage_handles isValid confined_engineData (by decide) frame
  · exact decodeMessage_handles isValid confined_gear (by decide) frame
  · exact decodeMessage_handles isValid confined_doors (by decide) frame
  · exact decodeMessage_handles isValid confined_blinkInfo (by decide) frame
  · exact decodeMessage_handles isValid confined_turnSwitch (by decide) frame
  · exact decodeMessage_handles isValid confined_brakePedal (by decide) frame
  · exact decodeMessage_handles isValid confined_acceleration (by decide) frame
  · exact handles_unobserved frame (by decide)

end Candidate

end AccessoryController.Mazda
