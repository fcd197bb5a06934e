import AccessoryController.Mazda.Candidate
import AccessoryController.VehicleSignals.Contracts

/-!
# The notification descriptors

One descriptor per notification channel: the slot it publishes, the message that slot belongs to
and how well its mapping is validated. The last descriptor is a test fixture outside the released
catalogue; it publishes the slot of another channel.

## Main definitions

* `NotificationChannelId`: the channels, in registration order
* `signal`, `identifier`, `validation`, `id`: the fields of their descriptors

## Main results

* `Candidate.decode_effect`: decoding a frame changes only the signals and the record of its message,
  and changes nothing without moving the record
-/

namespace AccessoryController.Mazda

open VehicleCore LawfulSignalSlots VehicleState
open VehicleCore.SignalSlots
open Candidate

inductive NotificationChannelId
  | selector | actualGear | turn | hazard | leftTurn | rightTurn | liftgate | rearRightDoor
  | rearLeftDoor | frontLeftDoor | frontRightDoor | doorsUnlocked | leftLamp | rightLamp | wiperLow
  | frontWiper | brake | testFrontWiper
  deriving DecidableEq, Repr

variable (channel : NotificationChannelId) (frame : RawCanFrame)

namespace NotificationChannelId

/-- The channels in registration order. -/
def all : List NotificationChannelId :=
  [.selector, .actualGear, .turn, .hazard, .leftTurn, .rightTurn, .liftgate, .rearRightDoor,
    .rearLeftDoor, .frontLeftDoor, .frontRightDoor, .doorsUnlocked, .leftLamp, .rightLamp,
    .wiperLow, .frontWiper, .brake, .testFrontWiper]

theorem mem_all : channel ∈ all := by
  cases channel <;> decide

/-- The values a channel carries. -/
def Value : NotificationChannelId → Type
  | .selector => SelectorPosition
  | .actualGear => ActualGear
  | .turn => TurnState
  | .frontWiper | .testFrontWiper => FrontWiperPosition
  | _ => Bool

instance (channel : NotificationChannelId) : DecidableEq channel.Value :=
  match channel with
  | .selector => inferInstanceAs (DecidableEq SelectorPosition)
  | .actualGear => inferInstanceAs (DecidableEq ActualGear)
  | .turn => inferInstanceAs (DecidableEq TurnState)
  | .frontWiper | .testFrontWiper => inferInstanceAs (DecidableEq FrontWiperPosition)
  | .hazard | .leftTurn | .rightTurn | .liftgate | .rearRightDoor | .rearLeftDoor | .frontLeftDoor
  | .frontRightDoor | .doorsUnlocked | .leftLamp | .rightLamp | .wiperLow | .brake =>
    inferInstanceAs (DecidableEq Bool)

def number : NotificationChannelId → ℕ
  | .selector => 1
  | .actualGear => 2
  | .turn => 3
  | .hazard => 4
  | .leftTurn => 5
  | .rightTurn => 6
  | .liftgate => 7
  | .rearRightDoor => 8
  | .rearLeftDoor => 9
  | .frontLeftDoor => 10
  | .frontRightDoor => 11
  | .doorsUnlocked => 12
  | .leftLamp => 13
  | .rightLamp => 14
  | .wiperLow => 15
  | .frontWiper => 16
  | .brake => 17
  | .testFrontWiper => 18

/-- The row of the released catalogue; the test fixture has none. -/
def id : NotificationChannelId → VehicleSignals.SignalId
  | .selector => ⟨9⟩
  | .actualGear => ⟨10⟩
  | .turn => ⟨3⟩
  | .hazard => ⟨4⟩
  | .leftTurn => ⟨5⟩
  | .rightTurn => ⟨6⟩
  | .liftgate => ⟨11⟩
  | .rearRightDoor => ⟨12⟩
  | .rearLeftDoor => ⟨13⟩
  | .frontLeftDoor => ⟨14⟩
  | .frontRightDoor => ⟨15⟩
  | .doorsUnlocked => ⟨16⟩
  | .leftLamp => ⟨7⟩
  | .rightLamp => ⟨8⟩
  | .wiperLow => ⟨17⟩
  | .frontWiper => ⟨18⟩
  | .brake => ⟨19⟩
  | .testFrontWiper => {}

/-- The message a channel's slot belongs to. -/
def identifier : NotificationChannelId → ℕ
  | .selector | .actualGear => kGearId
  | .turn | .hazard | .leftTurn | .rightTurn | .frontWiper | .testFrontWiper => kTurnSwitchId
  | .liftgate | .rearRightDoor | .rearLeftDoor | .frontLeftDoor | .frontRightDoor
  | .doorsUnlocked => kDoorsId
  | .leftLamp | .rightLamp | .wiperLow => kBlinkInfoId
  | .brake => kBrakePedalId

def validation : NotificationChannelId → ValidationStatus
  | .selector | .frontRightDoor | .brake => .confirmed
  | .actualGear | .wiperLow | .frontWiper | .testFrontWiper => .observed
  | _ => .reference

/-- The catalogue channel that publishes the same slot. -/
def twin : NotificationChannelId → NotificationChannelId
  | .testFrontWiper => .frontWiper
  | channel => channel

theorem id_twin_valid : channel.twin.id.valid := by
  cases channel <;> decide

@[simp] theorem identifier_twin : channel.twin.identifier = channel.identifier := by
  cases channel <;> rfl

end NotificationChannelId

namespace VehicleState

variable {Signal : Type → Type} [SignalSlots Signal]

/-- The slot a channel publishes. -/
def signal (state : VehicleState Signal) :
    (channel : NotificationChannelId) → Signal channel.Value
  | .selector => state.selectorPosition
  | .actualGear => state.actualGear
  | .turn => state.turnState
  | .hazard => state.hazardRequest
  | .leftTurn => state.leftTurnRequest
  | .rightTurn => state.rightTurnRequest
  | .liftgate => state.liftgateOpen
  | .rearRightDoor => state.rearRightDoorOpen
  | .rearLeftDoor => state.rearLeftDoorOpen
  | .frontLeftDoor => state.frontLeftDoorOpenRhd
  | .frontRightDoor => state.frontRightDoorOpenRhd
  | .doorsUnlocked => state.doorsUnlocked
  | .leftLamp => state.leftIndicatorLamp
  | .rightLamp => state.rightIndicatorLamp
  | .wiperLow => state.wiperLow
  | .frontWiper | .testFrontWiper => state.frontWiper
  | .brake => state.brakePressed

@[simp] theorem signal_setRecord (state : VehicleState Signal)
    (index : Fin kTrackedMessageCapacity) (record : MessageHealthState)
    (channel : NotificationChannelId) :
    (state.setRecord index record).signal channel = state.signal channel := by
  cases channel <;> rfl

theorem deadline_twin (state : VehicleState Signal) (channel : NotificationChannelId) :
    deadline (state.signal channel.twin) = deadline (state.signal channel) := by
  cases channel <;> rfl

end VehicleState

/-! ## What a decoder may touch -/

namespace Candidate

variable {Signal : Type → Type} [SignalSlots Signal]

/-- Applying a frame of a message writes only slots of that message, keeps every freshness timeout
and leaves the records alone. -/
structure Owns (identifier : ℕ)
    (apply : RawCanFrame → VehicleState Signal → VehicleState Signal × Bool) : Prop where
  health : ∀ frame state, (apply frame state).1.messageHealth = state.messageHealth
  signal : ∀ frame state (channel : NotificationChannelId), channel.identifier ≠ identifier →
    (apply frame state).1.signal channel = state.signal channel
  timeout : ∀ frame state (channel : NotificationChannelId),
    freshnessTimeoutUs ((apply frame state).1.signal channel) =
      freshnessTimeoutUs (state.signal channel)

/-- What decoding a frame may do: only the signals and the record of its message change, no
freshness timeout does, and a state that changed shows it in the watermark of the message. -/
structure DecodeEffect (frame : RawCanFrame) (state state' : VehicleState Signal) : Prop where
  signal : ∀ channel : NotificationChannelId, channel.identifier ≠ frame.identifier →
    state'.signal channel = state.signal channel
  health : ∀ identifier, identifier ≠ frame.identifier →
    state'.messageHealthFor identifier = state.messageHealthFor identifier
  timeout : ∀ channel : NotificationChannelId,
    freshnessTimeoutUs (state'.signal channel) = freshnessTimeoutUs (state.signal channel)
  moved : state' = state ∨
    ((∀ old, state.messageHealthFor frame.identifier = some old →
        old.lastFrameUs < frame.timestampUs) ∧
      ∃ new, state'.messageHealthFor frame.identifier = some new ∧
        new.lastFrameUs = frame.timestampUs)

theorem DecodeEffect.refl (state : VehicleState Signal) : DecodeEffect frame state state :=
  ⟨fun _ _ => rfl, fun _ _ => rfl, fun _ => rfl, .inl rfl⟩

/-- Accepting a frame into the record of its message touches no signal. -/
theorem DecodeEffect.of_admits {frame : RawCanFrame} {state state' : VehicleState Signal}
    (admits : Admits state frame state') : DecodeEffect frame state state' := by
  obtain ⟨index, record, rfl⟩ := admits.set
  refine ⟨?_, admits.other, ?_, .inr ⟨admits.newer, admits.own⟩⟩
  · intro channel _
    exact signal_setRecord state index record channel
  · intro channel
    rw [signal_setRecord]

theorem DecodeEffect.observeMessage (state : VehicleState Signal) (validity : DecodeValidity) :
    DecodeEffect frame state (state.observeMessage frame validity).1 := by
  rcases state.observeMessage_cases frame validity with ⟨same, -⟩ | ⟨-, admits⟩
  · rw [same]
    exact .refl frame state
  · exact .of_admits admits

theorem messageHealth_touch (result : VehicleState Signal × Bool) :
    (touch frame result).messageHealth = result.1.messageHealth := by
  rw [touch]
  split <;> rfl

theorem signal_touch (result : VehicleState Signal × Bool) (channel : NotificationChannelId) :
    (touch frame result).signal channel = result.1.signal channel := by
  rw [touch]
  split
  · cases channel <;> rfl
  · rfl

theorem messageHealthFor_congr {state state' : VehicleState Signal}
    (same : state'.messageHealth = state.messageHealth) (identifier : ℕ) :
    state'.messageHealthFor identifier = state.messageHealthFor identifier := by
  simp only [messageHealthFor, recordOf, same]

/-- Applying an accepted frame keeps the effect of observing it. -/
theorem DecodeEffect.apply {frame : RawCanFrame} {state accepted : VehicleState Signal}
    {apply : RawCanFrame → VehicleState Signal → VehicleState Signal × Bool}
    (owns : Owns frame.identifier apply)
    (admits : Admits state frame accepted) :
    DecodeEffect frame state (touch frame (apply frame accepted)) := by
  have hsame : (touch frame (apply frame accepted)).messageHealth = accepted.messageHealth := by
    rw [messageHealth_touch, owns.health]
  have hhealth := messageHealthFor_congr hsame
  obtain ⟨hsignal, hother, htimeout, -⟩ := DecodeEffect.of_admits admits
  refine ⟨?_, ?_, ?_, .inr ⟨admits.newer, ?_⟩⟩
  · intro channel hne
    rw [signal_touch, owns.signal frame accepted channel hne, hsignal channel hne]
  · intro identifier hne
    rw [hhealth, hother identifier hne]
  · intro channel
    rw [signal_touch, owns.timeout, htimeout]
  · rw [hhealth]
    exact admits.own

/-- **A decoder of the scheme** has the effect of a decoder. -/
theorem decodeMessage_effect (isValid : RawCanFrame → Bool) {identifier : ℕ}
    {malformed : RawCanFrame → Bool}
    {apply : RawCanFrame → VehicleState Signal → VehicleState Signal × Bool}
    (owns : Owns identifier apply) (frame : RawCanFrame) (state : VehicleState Signal) :
    DecodeEffect frame state (decodeMessage isValid identifier malformed apply frame state).1 := by
  rw [decodeMessage]
  cases classifyFrame isValid frame identifier with
  | ignored => exact .refl frame state
  | malformed =>
    dsimp only [recordMalformed]
    split
    · exact .observeMessage frame state .malformed
    · exact .refl frame state
  | decoded =>
    dsimp only
    split
    · exact .observeMessage frame state .malformed
    dsimp only [acceptFrame, recordHealthy]
    split
    · rw [if_neg (by nofun)]
      exact .refl frame state
    next hidentifier =>
      rw [ne_eq, not_not] at hidentifier
      subst hidentifier
      rcases state.observeMessage_cases frame .decoded with ⟨same, rejected⟩ | ⟨accepted, admits⟩
      · rw [if_neg rejected, same]
        exact .refl frame state
      · rw [if_pos accepted]
        exact .apply owns admits

theorem owns_engineData : @Owns Signal _ kEngineDataId applyEngineData := by
  refine ⟨fun _ _ => rfl, ?_, ?_⟩
  · intro frame state channel _
    cases channel <;> rfl
  · intro frame state channel
    cases channel <;> rfl

/-- The slots the acceleration message writes. -/
theorem applyAcceleration_writes (state : VehicleState Signal) :
    ∃ longitudinal lateral pressure, (applyAcceleration frame state).1 =
      { state with
        longitudinalAccelerationMps2 := longitudinal, lateralAccelerationMps2 := lateral
        brakePressureBar := pressure } :=
  ⟨_, _, _, rfl⟩

/-- No channel publishes the slots of the acceleration message. -/
theorem owns_acceleration : @Owns Signal _ kAccelerationId applyAcceleration := by
  have hsignal (frame : RawCanFrame) (state : VehicleState Signal)
      (channel : NotificationChannelId) :
      (applyAcceleration frame state).1.signal channel = state.signal channel := by
    obtain ⟨longitudinal, lateral, pressure, hwrites⟩ := applyAcceleration_writes frame state
    rw [hwrites]
    cases channel <;> rfl
  refine ⟨?_, fun frame state channel _ => hsignal frame state channel, ?_⟩
  · intro frame state
    obtain ⟨longitudinal, lateral, pressure, hwrites⟩ := applyAcceleration_writes frame state
    rw [hwrites]
  · intro frame state channel
    rw [hsignal]

variable [LawfulSignalSlots Signal]

theorem owns_gear : @Owns Signal _ kGearId applyGear := by
  refine ⟨fun _ _ => rfl, ?_, ?_⟩
  · intro frame state channel hne
    cases channel
    case selector | actualGear => exact absurd rfl hne
    all_goals rfl
  · intro frame state channel
    cases channel
    case selector =>
      show freshnessTimeoutUs (applyGear frame state).1.selectorPosition =
        freshnessTimeoutUs state.selectorPosition
      dsimp only [applyGear]
      split <;> simp
    case actualGear =>
      show freshnessTimeoutUs (applyGear frame state).1.actualGear =
        freshnessTimeoutUs state.actualGear
      dsimp only [applyGear]
      split <;> simp
    all_goals rfl

theorem owns_doors : @Owns Signal _ kDoorsId applyDoors := by
  refine ⟨fun _ _ => rfl, ?_, ?_⟩
  · intro frame state channel hne
    cases channel
    case liftgate | rearRightDoor | rearLeftDoor | frontLeftDoor | frontRightDoor |
      doorsUnlocked => exact absurd rfl hne
    all_goals rfl
  · intro frame state channel
    cases channel
    case liftgate | rearRightDoor | rearLeftDoor | frontLeftDoor | frontRightDoor |
      doorsUnlocked => exact freshnessTimeoutUs_update _ _ _
    all_goals rfl

theorem owns_blinkInfo : @Owns Signal _ kBlinkInfoId applyBlinkInfo := by
  refine ⟨fun _ _ => rfl, ?_, ?_⟩
  · intro frame state channel hne
    cases channel
    case leftLamp | rightLamp | wiperLow => exact absurd rfl hne
    all_goals rfl
  · intro frame state channel
    cases channel
    case leftLamp | rightLamp | wiperLow =>
      exact freshnessTimeoutUs_update _ _ _
    all_goals rfl

theorem owns_brakePedal : @Owns Signal _ kBrakePedalId applyBrakePedal := by
  refine ⟨fun _ _ => rfl, ?_, ?_⟩
  · intro frame state channel hne
    cases channel
    case brake => exact absurd rfl hne
    all_goals rfl
  · intro frame state channel
    cases channel
    case brake => exact freshnessTimeoutUs_update _ _ _
    all_goals rfl

/-- The turn slot is refreshed before it is updated, and keeps its timeout through both. -/
theorem owns_turnSwitch : @Owns Signal _ kTurnSwitchId applyTurnSwitch := by
  have hhealth (state : VehicleState Signal) (turn : TurnState) (time : MonotonicTimestamp) :
      (state.updateTurn turn time).1.messageHealth = state.messageHealth := by
    dsimp only [updateTurn]
    repeat' split
    all_goals rfl
  have hother (state : VehicleState Signal) (turn : TurnState) (time : MonotonicTimestamp)
      (channel : NotificationChannelId) (hne : channel ≠ .turn) :
      (state.updateTurn turn time).1.signal channel = state.signal channel := by
    dsimp only [updateTurn]
    repeat' split
    all_goals cases channel
    all_goals first | rfl | exact absurd rfl hne
  have htimeout (state : VehicleState Signal) (turn : TurnState) (time : MonotonicTimestamp) :
      freshnessTimeoutUs (state.updateTurn turn time).1.turnState =
        freshnessTimeoutUs state.turnState := by
    dsimp only [updateTurn]
    repeat' split
    all_goals simp
  -- past the turn slot the message writes only its own slots
  have hlater (frame : RawCanFrame) (state : VehicleState Signal)
      (channel : NotificationChannelId)
      (hne : channel.identifier ≠ kTurnSwitchId ∨ channel = .turn) :
      (applyTurnSwitch frame state).1.signal channel =
        (state.updateTurn (normalizeTurn (bit frame 1 (1 <<< 2)) (bit frame 1 (1 <<< 5))
          (bit frame 1 (1 <<< 4))) frame.timestampUs).1.signal channel := by
    cases channel
    case hazard | leftTurn | rightTurn | frontWiper | testFrontWiper =>
      rcases hne with hne | hne
      · exact absurd rfl hne
      · cases hne
    all_goals rfl
  refine ⟨fun frame state => hhealth state _ _, ?_, ?_⟩
  · intro frame state channel hne
    rw [hlater frame state channel (.inl hne)]
    apply hother
    rintro rfl
    exact hne rfl
  · intro frame state channel
    have hsame := fun other hne => congrArg freshnessTimeoutUs
      (hother state (normalizeTurn (bit frame 1 (1 <<< 2)) (bit frame 1 (1 <<< 5))
        (bit frame 1 (1 <<< 4))) frame.timestampUs other hne)
    cases channel
    case turn => exact htimeout state _ _
    case hazard =>
      exact (freshnessTimeoutUs_update _ _ _).trans (hsame .hazard (by nofun))
    case leftTurn =>
      exact (freshnessTimeoutUs_update _ _ _).trans (hsame .leftTurn (by nofun))
    case rightTurn =>
      exact (freshnessTimeoutUs_update _ _ _).trans (hsame .rightTurn (by nofun))
    case frontWiper | testFrontWiper =>
      exact (freshnessTimeoutUs_update _ _ _).trans (hsame .frontWiper (by nofun))
    all_goals
      rw [hlater frame state _ (.inl (by decide))]
      exact hsame _ (by nofun)

/-- **Decoding a frame** changes only the signals and the record of its message, and changes
nothing without moving the watermark of that message. -/
theorem decode_effect (isValid : RawCanFrame → Bool) (frame : RawCanFrame)
    (state : VehicleState Signal) : DecodeEffect frame state (decode isValid frame state).1 := by
  rw [decode]
  repeat' split
  all_goals first
    | exact .refl frame state
    | exact decodeMessage_effect isValid owns_engineData frame state
    | exact decodeMessage_effect isValid owns_gear frame state
    | exact decodeMessage_effect isValid owns_doors frame state
    | exact decodeMessage_effect isValid owns_blinkInfo frame state
    | exact decodeMessage_effect isValid owns_turnSwitch frame state
    | exact decodeMessage_effect isValid owns_brakePedal frame state
    | exact decodeMessage_effect isValid owns_acceleration frame state

end Candidate

end AccessoryController.Mazda
