import AccessoryController.Library.Binary32
import AccessoryController.VehicleCore.Signal
import Mathlib.Data.List.FinRange

/-!
# The vehicle state

The signals decoded from the car's frames, one slot each, beside one record per message that
remembers the last frame of the message and whether it decoded. A frame is observed before its
signals are updated: only a frame newer than the record is accepted, and a reading is withheld
while the record is faulted or the transport is down.

## Main definitions

* `VehicleState`: the slots and the message records
* `VehicleState.observeMessage`: the watermark rules of a message
* `VehicleState.updateTurn`: the turn slot with its edges
* `VehicleState.readingAt`: a reading under the health of its message and of the transport

## Main results

* `observeMessage_cases`: an observation leaves the state as it is or accepts a newer frame into
  the record of its message
* `readingAt_congr`: when two readings agree
-/

namespace AccessoryController.Mazda

open VehicleCore
open VehicleCore.SignalSlots

instance : BEq Binary32 := ⟨Binary32.eq⟩

inductive SelectorPosition
  | unknown | shifting | park | reverse | neutral | drive
  deriving DecidableEq, Repr, Inhabited

inductive ActualGear
  | unknown | parkOrNeutral | park | neutral | reverse | first | second | third | fourth | fifth
  | sixth | shifting
  deriving DecidableEq, Repr, Inhabited

inductive FrontWiperPosition
  | unknown | off | on | high | intermittent
  deriving DecidableEq, Repr, Inhabited

inductive TurnState
  | unknown | off | left | right | hazard
  deriving DecidableEq, Repr, Inhabited

/-- A change of the turn state. -/
structure TurnEdgeEvent where
  previous : TurnState := .unknown
  current : TurnState := .unknown
  timestampUs : MonotonicTimestamp := 0
  deriving DecidableEq, Repr

def kTurnFreshnessTimeoutUs : Microseconds := 250000
def kRequestFreshnessTimeoutUs : Microseconds := 250000
def kAccelerationFreshnessTimeoutUs : Microseconds := 250000

/-- The freshness timeout of every signal. -/
structure VehicleFreshnessPolicy where
  speedKphTimeoutUs : Option Microseconds := none
  engineRpmTimeoutUs : Option Microseconds := none
  acceleratorPedalPositionTimeoutUs : Option Microseconds := none
  brakePressureTimeoutUs : Option Microseconds := none
  longitudinalAccelerationMps2TimeoutUs : Option Microseconds := some kAccelerationFreshnessTimeoutUs
  lateralAccelerationMps2TimeoutUs : Option Microseconds := some kAccelerationFreshnessTimeoutUs
  selectorPositionTimeoutUs : Option Microseconds := none
  actualGearTimeoutUs : Option Microseconds := none
  turnStateTimeoutUs : Option Microseconds := some kTurnFreshnessTimeoutUs
  hazardRequestTimeoutUs : Option Microseconds := some kRequestFreshnessTimeoutUs
  leftTurnRequestTimeoutUs : Option Microseconds := some kRequestFreshnessTimeoutUs
  rightTurnRequestTimeoutUs : Option Microseconds := some kRequestFreshnessTimeoutUs
  brakePressedTimeoutUs : Option Microseconds := none
  liftgateOpenTimeoutUs : Option Microseconds := none
  rearRightDoorOpenTimeoutUs : Option Microseconds := none
  rearLeftDoorOpenTimeoutUs : Option Microseconds := none
  frontLeftDoorOpenRhdTimeoutUs : Option Microseconds := none
  frontRightDoorOpenRhdTimeoutUs : Option Microseconds := none
  doorsUnlockedTimeoutUs : Option Microseconds := none
  leftIndicatorLampTimeoutUs : Option Microseconds := none
  rightIndicatorLampTimeoutUs : Option Microseconds := none
  wiperLowTimeoutUs : Option Microseconds := none
  frontWiperTimeoutUs : Option Microseconds := none

/-- The record of one message: its last frame, and whether that frame decoded. -/
structure MessageHealthState where
  identifier : ℕ := 0
  hasFrame : Bool := false
  lastFrameUs : MonotonicTimestamp := 0
  hasAccepted : Bool := false
  lastAcceptedUs : MonotonicTimestamp := 0
  health : MessageHealth := .unknown
  faultTimestampUs : Option MonotonicTimestamp := none
  busId : ℕ := 0
  dlc : ℕ := 0
  identifierFormat : CanIdentifierFormat := .standard
  remoteRequest : Bool := false
  data : Vector UInt8 kCanClassicPayloadBytes := Vector.replicate kCanClassicPayloadBytes 0

inductive MessageObservationResult
  | ignored | accepted | idempotent | rejectedOlder | rejectedConflict | capacityExceeded
  deriving DecidableEq, Repr

def kTrackedMessageCapacity : ℕ := 7

/-- The signals of the car and the records of its messages. -/
structure VehicleState (Signal : Type → Type) [SignalSlots Signal] where
  timestampUs : MonotonicTimestamp := 0
  speedKph : Signal Binary32 := construct none
  engineRpm : Signal Binary32 := construct none
  acceleratorPedalPosition : Signal Binary32 := construct none
  brakePressureBar : Signal Binary32 := construct none
  longitudinalAccelerationMps2 : Signal Binary32 := construct none
  lateralAccelerationMps2 : Signal Binary32 := construct none
  selectorPosition : Signal SelectorPosition := construct none
  actualGear : Signal ActualGear := construct none
  turnState : Signal TurnState := construct (some kTurnFreshnessTimeoutUs)
  hazardRequest : Signal Bool := construct (some kRequestFreshnessTimeoutUs)
  leftTurnRequest : Signal Bool := construct (some kRequestFreshnessTimeoutUs)
  rightTurnRequest : Signal Bool := construct (some kRequestFreshnessTimeoutUs)
  brakePressed : Signal Bool := construct none
  liftgateOpen : Signal Bool := construct none
  rearRightDoorOpen : Signal Bool := construct none
  rearLeftDoorOpen : Signal Bool := construct none
  frontLeftDoorOpenRhd : Signal Bool := construct none
  frontRightDoorOpenRhd : Signal Bool := construct none
  doorsUnlocked : Signal Bool := construct none
  leftIndicatorLamp : Signal Bool := construct none
  rightIndicatorLamp : Signal Bool := construct none
  wiperLow : Signal Bool := construct none
  frontWiper : Signal FrontWiperPosition := construct none
  messageHealth : Fin kTrackedMessageCapacity → MessageHealthState := fun _ => {}

/-- The frame a record remembers is this one. -/
def sameFrame (frame : RawCanFrame) (record : MessageHealthState) : Bool :=
  record.hasFrame && frame.identifier == record.identifier && frame.busId == record.busId &&
    frame.dlc == record.dlc && frame.identifierFormat == record.identifierFormat &&
    frame.remoteRequest == record.remoteRequest && frame.data == record.data

def copyFrame (frame : RawCanFrame) (record : MessageHealthState) : MessageHealthState :=
  { record with
    identifier := frame.identifier
    hasFrame := true
    lastFrameUs := frame.timestampUs
    busId := frame.busId
    dlc := frame.dlc
    identifierFormat := frame.identifierFormat
    remoteRequest := frame.remoteRequest
    data := frame.data }

/-- A transport under which no reading is available. -/
def transportDown (transport : TransportHealth) : Prop :=
  transport = .stopped ∨ transport = .faulted ∨ transport = .timedOut

instance (transport : TransportHealth) : Decidable (transportDown transport) :=
  inferInstanceAs (Decidable (_ ∨ _))

/-- The status of a signal under the health of its message and of the transport. -/
def statusAt {Signal : Type → Type} [SignalSlots Signal] {T : Type} (signal : Signal T)
    (nowUs : MonotonicTimestamp) (message : MessageHealth) (transport : TransportHealth) :
    Availability :=
  if transportDown transport then .unavailable
  else if !hasValue signal then .noData
  else if message = .faulted then .unavailable
  else SignalSlots.statusAt signal nowUs

/-- The reading of a signal under the health of its message and of the transport. -/
def snapshot {Signal : Type → Type} [SignalSlots Signal] {T : Type} (signal : Signal T)
    (nowUs : MonotonicTimestamp) (validation : ValidationStatus) (message : MessageHealth)
    (transport : TransportHealth) : Reading T :=
  { SignalSlots.snapshot signal nowUs validation with
    availability := statusAt signal nowUs message transport }

variable {Signal : Type → Type} [SignalSlots Signal]

variable {identifier : ℕ} {state : VehicleState Signal} {index : Fin kTrackedMessageCapacity}
  {record : MessageHealthState} {state' : VehicleState Signal}

namespace VehicleState

/-- The record that holds a frame of a message. -/
def recordOf (state : VehicleState Signal) (identifier : ℕ) :
    Option (Fin kTrackedMessageCapacity) :=
  (List.finRange kTrackedMessageCapacity).find? fun index =>
    (state.messageHealth index).hasFrame && (state.messageHealth index).identifier == identifier

def messageHealthFor (state : VehicleState Signal) (identifier : ℕ) :
    Option MessageHealthState :=
  (state.recordOf identifier).map state.messageHealth

def setRecord (state : VehicleState Signal) (index : Fin kTrackedMessageCapacity)
    (record : MessageHealthState) : VehicleState Signal :=
  { state with messageHealth := Function.update state.messageHealth index record }

/-- The record of a message, or the first free one, which then carries its identifier. -/
def findOrAllocateRecord (state : VehicleState Signal) (identifier : ℕ) :
    Option (VehicleState Signal × Fin kTrackedMessageCapacity) :=
  match state.recordOf identifier with
  | some index => some (state, index)
  | none =>
    ((List.finRange kTrackedMessageCapacity).find? fun index =>
      !(state.messageHealth index).hasFrame).map fun index =>
        (state.setRecord index { state.messageHealth index with identifier := identifier }, index)

/-- Records a frame that decoded or was malformed. Only a frame newer than the last one of its
message is accepted, so a fault is cleared only by a strictly newer frame that decoded. -/
def observeMessage (state : VehicleState Signal) (frame : RawCanFrame)
    (validity : DecodeValidity) : VehicleState Signal × MessageObservationResult :=
  if validity = .ignored then (state, .ignored)
  else
    match state.findOrAllocateRecord frame.identifier with
    | none => (state, .capacityExceeded)
    | some (state, index) =>
      let record := state.messageHealth index
      if validity = .malformed then
        if !record.hasFrame || frame.timestampUs > record.lastFrameUs then
          (state.setRecord index
            { copyFrame frame record with
              health := .faulted, faultTimestampUs := some frame.timestampUs }, .accepted)
        else if frame.timestampUs < record.lastFrameUs then (state, .rejectedOlder)
        else if record.health = .faulted ∧ sameFrame frame record then (state, .idempotent)
        else (state, .rejectedConflict)
      else if !record.hasFrame || frame.timestampUs > record.lastFrameUs then
        (state.setRecord index
          { copyFrame frame record with
            health := .healthy, hasAccepted := true, lastAcceptedUs := frame.timestampUs
            faultTimestampUs := none }, .accepted)
      else if frame.timestampUs < record.lastFrameUs then (state, .rejectedOlder)
      else if record.health = .faulted then (state, .rejectedConflict)
      else if sameFrame frame record then (state, .idempotent)
      else (state, .rejectedConflict)

/-- Unknown and stale turn values are not actionable. -/
def effectiveTurnState (state : VehicleState Signal) : TurnState :=
  if isValid state.turnState then value state.turnState else .unknown

/-- Applies a turn state and reports the edge, if it is one. An observation that is not newer is
dropped before it can refresh the slot. -/
def updateTurn (state : VehicleState Signal) (turn : TurnState)
    (timestampUs : MonotonicTimestamp) : VehicleState Signal × Option TurnEdgeEvent :=
  if hasValue state.turnState && timestampUs ≤ lastUpdateUs state.turnState then (state, none)
  else
    let refreshed : VehicleState Signal :=
      { state with turnState := refresh state.turnState timestampUs }
    let previous := refreshed.effectiveTurnState
    let updated := update refreshed.turnState turn timestampUs
    if !updated.2 then ({ refreshed with turnState := updated.1 }, none)
    else
      ({ refreshed with
          turnState := updated.1, timestampUs := max state.timestampUs timestampUs },
        if previous = turn then none else some { previous, current := turn, timestampUs })

def applyFreshnessPolicy (state : VehicleState Signal) (policy : VehicleFreshnessPolicy) :
    VehicleState Signal :=
  { state with
    speedKph := setFreshnessTimeout state.speedKph policy.speedKphTimeoutUs
    engineRpm := setFreshnessTimeout state.engineRpm policy.engineRpmTimeoutUs
    acceleratorPedalPosition := setFreshnessTimeout state.acceleratorPedalPosition
      policy.acceleratorPedalPositionTimeoutUs
    brakePressureBar := setFreshnessTimeout state.brakePressureBar policy.brakePressureTimeoutUs
    longitudinalAccelerationMps2 := setFreshnessTimeout state.longitudinalAccelerationMps2
      policy.longitudinalAccelerationMps2TimeoutUs
    lateralAccelerationMps2 := setFreshnessTimeout state.lateralAccelerationMps2
      policy.lateralAccelerationMps2TimeoutUs
    selectorPosition := setFreshnessTimeout state.selectorPosition policy.selectorPositionTimeoutUs
    actualGear := setFreshnessTimeout state.actualGear policy.actualGearTimeoutUs
    liftgateOpen := setFreshnessTimeout state.liftgateOpen policy.liftgateOpenTimeoutUs
    rearRightDoorOpen := setFreshnessTimeout state.rearRightDoorOpen
      policy.rearRightDoorOpenTimeoutUs
    rearLeftDoorOpen := setFreshnessTimeout state.rearLeftDoorOpen policy.rearLeftDoorOpenTimeoutUs
    frontLeftDoorOpenRhd := setFreshnessTimeout state.frontLeftDoorOpenRhd
      policy.frontLeftDoorOpenRhdTimeoutUs
    frontRightDoorOpenRhd := setFreshnessTimeout state.frontRightDoorOpenRhd
      policy.frontRightDoorOpenRhdTimeoutUs
    doorsUnlocked := setFreshnessTimeout state.doorsUnlocked policy.doorsUnlockedTimeoutUs
    leftIndicatorLamp := setFreshnessTimeout state.leftIndicatorLamp
      policy.leftIndicatorLampTimeoutUs
    rightIndicatorLamp := setFreshnessTimeout state.rightIndicatorLamp
      policy.rightIndicatorLampTimeoutUs
    wiperLow := setFreshnessTimeout state.wiperLow policy.wiperLowTimeoutUs
    frontWiper := setFreshnessTimeout state.frontWiper policy.frontWiperTimeoutUs
    turnState := setFreshnessTimeout state.turnState policy.turnStateTimeoutUs
    hazardRequest := setFreshnessTimeout state.hazardRequest policy.hazardRequestTimeoutUs
    leftTurnRequest := setFreshnessTimeout state.leftTurnRequest policy.leftTurnRequestTimeoutUs
    rightTurnRequest := setFreshnessTimeout state.rightTurnRequest policy.rightTurnRequestTimeoutUs
    brakePressed := setFreshnessTimeout state.brakePressed policy.brakePressedTimeoutUs }

/-- The health under which a message's readings are evaluated; a message without a record counts
as healthy. -/
def messageStatus (state : VehicleState Signal) (identifier : ℕ) : MessageHealth :=
  (state.messageHealthFor identifier).elim .healthy MessageHealthState.health

def readingAt {T : Type} (state : VehicleState Signal) (signal : Signal T) (identifier : ℕ)
    (nowUs : MonotonicTimestamp) (validation : ValidationStatus) (transport : TransportHealth) :
    Reading T :=
  Mazda.snapshot signal nowUs validation (state.messageStatus identifier) transport

/-! ## The records -/

theorem recordOf_some (h : state.recordOf identifier = some index) :
    (state.messageHealth index).hasFrame = true ∧
      (state.messageHealth index).identifier = identifier := by
  have hfound := List.find?_some h
  simpa using hfound

theorem recordOf_none (h : state.recordOf identifier = none) (index : Fin kTrackedMessageCapacity) :
    (state.messageHealth index).hasFrame = true →
      (state.messageHealth index).identifier ≠ identifier := by
  have hnone := List.find?_eq_none.mp h index (List.mem_finRange index)
  intro hframe heq
  exact hnone (by simp [hframe, heq])

@[simp] theorem messageHealth_setRecord (state : VehicleState Signal)
    (index : Fin kTrackedMessageCapacity) (record : MessageHealthState) :
    (state.setRecord index record).messageHealth =
      Function.update state.messageHealth index record := rfl

@[simp] theorem setRecord_setRecord (state : VehicleState Signal)
    (index : Fin kTrackedMessageCapacity) (record record' : MessageHealthState) :
    (state.setRecord index record).setRecord index record' = state.setRecord index record' := by
  simp only [setRecord, Function.update_idem]

/-- Writing the record of one message leaves those of the others. -/
theorem messageHealthFor_setRecord_of_ne (other : (state.messageHealth index).hasFrame = true →
      (state.messageHealth index).identifier ≠ identifier) (named : record.identifier ≠ identifier) :
    (state.setRecord index record).messageHealthFor identifier =
      state.messageHealthFor identifier := by
  have hrecord : (state.setRecord index record).recordOf identifier = state.recordOf identifier := by
    unfold recordOf
    congr 1
    funext place
    rcases eq_or_ne place index with rfl | hne
    · have hold : ((state.messageHealth place).hasFrame &&
          (state.messageHealth place).identifier == identifier) = false := by
        simpa using other
      simp [hold, named]
    · simp [hne]
  rw [messageHealthFor, messageHealthFor, hrecord]
  cases hfound : state.recordOf identifier with
  | none => rfl
  | some place =>
    have hne : place ≠ index := by
      rintro rfl
      exact other (recordOf_some hfound).1 (recordOf_some hfound).2
    simp [hne]

/-- The record written for a message is the one found for it. -/
theorem messageHealthFor_setRecord_self
    (place : ∀ found, state.recordOf identifier = some found → found = index)
    (frame : record.hasFrame = true) (named : record.identifier = identifier) :
    (state.setRecord index record).messageHealthFor identifier = some record := by
  have hplace : ∀ found, (state.setRecord index record).recordOf identifier = some found →
      found = index := by
    intro found hfound
    by_contra hne
    -- a record found elsewhere was there before, and the first one found then lies here
    have hold := recordOf_some hfound
    simp only [messageHealth_setRecord, Function.update_of_ne hne] at hold
    cases hbefore : state.recordOf identifier with
    | none => exact recordOf_none hbefore found hold.1 hold.2
    | some first =>
      have hsame : (state.setRecord index record).recordOf identifier =
          state.recordOf identifier := by
        unfold recordOf
        congr 1
        funext other
        rcases eq_or_ne other index with rfl | hother
        · obtain ⟨hframe, hnamed⟩ := recordOf_some hbefore
          rw [place first hbefore] at hframe hnamed
          simp [frame, named, hframe, hnamed]
        · simp [hother]
      rw [hsame] at hfound
      exact hne (place found hfound)
  cases hfound : (state.setRecord index record).recordOf identifier with
  | none =>
    have hnone := recordOf_none hfound index
    simp [frame, named] at hnone
  | some found =>
    rw [messageHealthFor, hfound, hplace found hfound]
    simp

/-- What accepting a frame does to the state: the record of its message now holds the frame, which
is newer than what it held, and nothing else changes. -/
structure Admits (state : VehicleState Signal) (frame : RawCanFrame)
    (state' : VehicleState Signal) : Prop where
  set : ∃ index record, state' = state.setRecord index record
  newer : ∀ old, state.messageHealthFor frame.identifier = some old →
    old.lastFrameUs < frame.timestampUs
  own : ∃ record, state'.messageHealthFor frame.identifier = some record ∧
    record.lastFrameUs = frame.timestampUs
  other : ∀ identifier, identifier ≠ frame.identifier →
    state'.messageHealthFor identifier = state.messageHealthFor identifier

/-- Accepting a frame into the place found or allocated for its message. -/
theorem Admits.of_findOrAllocateRecord {frame : RawCanFrame}
    (found : state.findOrAllocateRecord frame.identifier = some (state', index))
    (newer : (state'.messageHealth index).hasFrame = true →
      (state'.messageHealth index).lastFrameUs < frame.timestampUs)
    (named : record.identifier = frame.identifier) (full : record.hasFrame = true)
    (time : record.lastFrameUs = frame.timestampUs) :
    Admits state frame (state'.setRecord index record) := by
  have hcase : (state' = state ∧ state.recordOf frame.identifier = some index) ∨
      (state.recordOf frame.identifier = none ∧ (state.messageHealth index).hasFrame = false ∧
        ∃ record, state' = state.setRecord index record) := by
    rw [findOrAllocateRecord] at found
    cases hrecord : state.recordOf frame.identifier with
    | some place =>
      rw [hrecord] at found
      obtain ⟨rfl, rfl⟩ := found
      exact .inl ⟨rfl, rfl⟩
    | none =>
      rw [hrecord] at found
      simp only [Option.map_eq_some_iff, Prod.mk.injEq] at found
      obtain ⟨place, hfree, rfl, rfl⟩ := found
      exact .inr ⟨rfl, by simpa using List.find?_some hfree, _, rfl⟩
  rcases hcase with ⟨rfl, hrecord⟩ | ⟨hrecord, hfree, old, rfl⟩
  · refine ⟨⟨index, record, rfl⟩, ?_, ⟨record, ?_, time⟩, ?_⟩
    · intro held hheld
      rw [messageHealthFor, hrecord, Option.map_some, Option.some.injEq] at hheld
      rw [← hheld]
      exact newer (recordOf_some hrecord).1
    · apply messageHealthFor_setRecord_self _ full named
      intro place hplace
      exact Option.some.inj (hplace.symm.trans hrecord)
    · intro identifier hne
      apply messageHealthFor_setRecord_of_ne _ (by rw [named]; exact hne.symm)
      intro _ heq
      exact hne (heq.symm.trans (recordOf_some hrecord).2)
  · rw [setRecord_setRecord]
    refine ⟨⟨index, record, rfl⟩, ?_, ⟨record, ?_, time⟩, ?_⟩
    · intro held hheld
      rw [messageHealthFor, hrecord] at hheld
      cases hheld
    · apply messageHealthFor_setRecord_self _ full named
      intro place hplace
      rw [hrecord] at hplace
      cases hplace
    · intro identifier hne
      apply messageHealthFor_setRecord_of_ne _ (by rw [named]; exact hne.symm)
      rw [hfree]
      intro hframe
      cases hframe

/-- A place without a frame was allocated only for a message without a record, and any frame is
accepted into it. -/
theorem findOrAllocateRecord_held
    (found : state.findOrAllocateRecord identifier = some (state', index))
    (held : (state'.messageHealth index).hasFrame = true) : state' = state := by
  rw [findOrAllocateRecord] at found
  cases hrecord : state.recordOf identifier with
  | some place =>
    rw [hrecord] at found
    simp only [Option.some.injEq, Prod.mk.injEq] at found
    exact found.1.symm
  | none =>
    rw [hrecord] at found
    simp only [Option.map_eq_some_iff, Prod.mk.injEq] at found
    obtain ⟨place, hfree, rfl, rfl⟩ := found
    have hempty : (state.messageHealth place).hasFrame = false := by
      simpa using List.find?_some hfree
    simp [hempty] at held

/-- **An observation** leaves the state as it is or accepts a newer frame of its message. -/
theorem observeMessage_cases (state : VehicleState Signal) (frame : RawCanFrame)
    (validity : DecodeValidity) :
    ((state.observeMessage frame validity).1 = state ∧
        (state.observeMessage frame validity).2 ≠ .accepted) ∨
      ((state.observeMessage frame validity).2 = .accepted ∧
        Admits state frame (state.observeMessage frame validity).1) := by
  rw [observeMessage]
  split
  · exact .inl ⟨rfl, nofun⟩
  cases hfound : state.findOrAllocateRecord frame.identifier with
  | none => exact .inl ⟨rfl, nofun⟩
  | some found =>
    obtain ⟨state', index⟩ := found
    dsimp only
    by_cases hnew : (!(state'.messageHealth index).hasFrame ||
        frame.timestampUs > (state'.messageHealth index).lastFrameUs) = true
    · have hnewer : (state'.messageHealth index).hasFrame = true →
          (state'.messageHealth index).lastFrameUs < frame.timestampUs := by
        intro hheld
        simpa [hheld] using hnew
      rw [if_pos hnew, if_pos hnew]
      split
      · exact .inr ⟨rfl, .of_findOrAllocateRecord hfound hnewer rfl rfl rfl⟩
      · exact .inr ⟨rfl, .of_findOrAllocateRecord hfound hnewer rfl rfl rfl⟩
    · have hheld : (state'.messageHealth index).hasFrame = true := by
        by_contra hfree
        simp [hfree] at hnew
      have hsame := findOrAllocateRecord_held hfound hheld
      subst hsame
      rw [if_neg hnew, if_neg hnew]
      refine .inl ⟨?_, ?_⟩
      · repeat' split
        all_goals rfl
      · repeat' split
        all_goals nofun

/-! ## Readings -/

/-- **When two readings agree**: the transport is down for both or for neither, the record of the
message says the same, and the clock has not passed the deadline of the slot in between. -/
theorem readingAt_congr [LawfulSignalSlots Signal] {T : Type} {signal : Signal T}
    {nowUs laterUs : MonotonicTimestamp} {validation : ValidationStatus}
    {transport transport' : TransportHealth} (now : nowUs ≤ maxTimestamp)
    (later : laterUs ≤ maxTimestamp)
    (health : state.messageStatus identifier = state'.messageStatus identifier)
    (down : transportDown transport ↔ transportDown transport')
    (same : Board.Passed (deadline signal) nowUs ↔ Board.Passed (deadline signal) laterUs) :
    state.readingAt signal identifier nowUs validation transport =
      state'.readingAt signal identifier laterUs validation transport' := by
  have hstatus : Mazda.statusAt signal nowUs (state.messageStatus identifier) transport =
      Mazda.statusAt signal laterUs (state'.messageStatus identifier) transport' := by
    rw [Mazda.statusAt, Mazda.statusAt, health]
    refine if_congr down rfl ?_
    cases hvalue : hasValue signal with
    | false => rfl
    | true =>
      rw [statusAt_congr hvalue now later same]
  rw [readingAt, readingAt, Mazda.snapshot, Mazda.snapshot, hstatus,
    LawfulSignalSlots.snapshot_value signal nowUs laterUs validation,
    LawfulSignalSlots.snapshot_validation, LawfulSignalSlots.snapshot_validation]

end VehicleState

end AccessoryController.Mazda
