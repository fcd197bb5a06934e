import AccessoryController.Library.Binary32Arithmetic
import AccessoryController.Mazda.VehicleState

/-!
# The candidate decoders

Seven messages are decoded, each by its own decoder, all of them by one scheme: the frame is
classified, observed in the record of its message and, if it was accepted, applied to the slots
of its signals. The engine message is also malformed when its engine speed is out of range.
A decoder's optional diagnostic outputs are not modelled; the service passes none.

## Main definitions

* `classifyFrame`: whether a frame is ignored, malformed or decoded as a message
* `decodeMessage`: the scheme of a decoder
* `decodeEngineData`, `decodeGear`, …: the decoders
* `decode`: the routing by identifier
-/

namespace AccessoryController.Mazda.Candidate

open VehicleCore
open VehicleCore.SignalSlots

def kEngineDataId : ℕ := 0x202
def kGearId : ℕ := 0x228
def kDoorsId : ℕ := 0x43e
def kTurnSwitchId : ℕ := 0x091
def kBlinkInfoId : ℕ := 0x09a
def kAccelerationId : ℕ := 0x078
def kBrakePedalId : ℕ := 0x165
def kCandidateDlc : ℕ := 8

/-- An integer as a single-precision number. -/
def toFloat (n : ℤ) : Binary32 :=
  Binary32.signed (decide (n < 0)) (Binary32.roundBits (n.natAbs * 2 ^ 149) 1)

/-- A byte of the payload. -/
def byte (frame : RawCanFrame) (index : Fin 8) : ℕ :=
  (frame.data.get index).toNat

/-- Some bit of a mask is set in a byte of the payload. -/
def bit (frame : RawCanFrame) (index : Fin 8) (mask : ℕ) : Bool :=
  byte frame index &&& mask != 0

def bigEndianU16 (frame : RawCanFrame) (high low : Fin 8) : ℕ :=
  byte frame high <<< 8 ||| byte frame low

def selectorFromRaw : ℕ → SelectorPosition
  | 0 => .shifting
  | 1 => .park
  | 2 => .reverse
  | 3 => .neutral
  | 4 => .drive
  | _ => .unknown

def actualGearFromRaw : ℕ → ActualGear
  | 0 => .parkOrNeutral
  | 1 => .first
  | 2 => .second
  | 3 => .third
  | 4 => .fourth
  | 5 => .fifth
  | 6 => .sixth
  | 14 => .reverse
  | 15 => .shifting
  | _ => .unknown

def frontWiperFromRaw : ℕ → FrontWiperPosition
  | 0 => .off
  | 1 => .on
  | 2 => .high
  | 3 => .intermittent
  | _ => .unknown

/-- Hazard wins over either direction; both directions together say nothing. -/
def normalizeTurn (hazard left right : Bool) : TurnState :=
  if hazard then .hazard
  else if left && right then .unknown
  else if left then .left
  else if right then .right
  else .off

section Decoders

variable (isValid : RawCanFrame → Bool)

/-- An invalid frame is malformed as any message; a valid one is a frame of the message only with
its identifier in a standard data frame. -/
def classifyFrame (frame : RawCanFrame) (identifier : ℕ) : DecodeValidity :=
  if !isValid frame then .malformed
  else if frame.identifier ≠ identifier ∨ frame.identifierFormat ≠ .standard ∨
      frame.remoteRequest then .ignored
  else if frame.dlc ≠ kCandidateDlc then .malformed
  else .decoded

variable {Signal : Type → Type} [SignalSlots Signal]

def recordMalformed (frame : RawCanFrame) (identifier : ℕ) (state : VehicleState Signal) :
    VehicleState Signal :=
  if frame.identifier = identifier then (state.observeMessage frame .malformed).1 else state

def recordHealthy (frame : RawCanFrame) (identifier : ℕ) (state : VehicleState Signal) :
    VehicleState Signal × MessageObservationResult :=
  if frame.identifier ≠ identifier then (state, .ignored)
  else state.observeMessage frame .decoded

/-- The time of a state whose signals took a frame up. -/
def touch (frame : RawCanFrame) (result : VehicleState Signal × Bool) : VehicleState Signal :=
  if result.2 && frame.timestampUs > result.1.timestampUs then
    { result.1 with timestampUs := frame.timestampUs }
  else result.1

/-- Observes a frame that decodes and applies it if it is accepted. -/
def acceptFrame (identifier : ℕ)
    (apply : RawCanFrame → VehicleState Signal → VehicleState Signal × Bool) (frame : RawCanFrame)
    (state : VehicleState Signal) : VehicleState Signal :=
  let (state, result) := recordHealthy frame identifier state
  if result = .accepted then touch frame (apply frame state) else state

/-- The scheme of a decoder: `malformed` is the message's own check of a frame that classifies as
decoded, and `apply` writes an accepted frame into the slots. -/
def decodeMessage (identifier : ℕ) (malformed : RawCanFrame → Bool)
    (apply : RawCanFrame → VehicleState Signal → VehicleState Signal × Bool) (frame : RawCanFrame)
    (state : VehicleState Signal) : VehicleState Signal × DecodeValidity :=
  match classifyFrame isValid frame identifier with
  | .ignored => (state, .ignored)
  | .malformed => (recordMalformed frame identifier state, .malformed)
  | .decoded =>
    if malformed frame then ((state.observeMessage frame .malformed).1, .malformed)
    else (acceptFrame identifier apply frame state, .decoded)

/-- The accelerator position out of range withholds only its own signal. -/
def applyEngineData (frame : RawCanFrame) (state : VehicleState Signal) :
    VehicleState Signal × Bool :=
  let acceleratorRaw := bigEndianU16 frame 4 5
  let rpm := update state.engineRpm
    ((toFloat (bigEndianU16 frame 0 1)).mul ⟨0x3e800000⟩) frame.timestampUs
  let speed := update state.speedKph
    ((toFloat (bigEndianU16 frame 2 3)).mul ⟨0x3c23d70a⟩) frame.timestampUs
  let accelerator :=
    if acceleratorRaw > 64000 then invalidate state.acceleratorPedalPosition frame.timestampUs
    else update state.acceleratorPedalPosition
      ((toFloat acceleratorRaw).div (toFloat 64000)) frame.timestampUs
  ({ state with
      engineRpm := rpm.1, speedKph := speed.1, acceleratorPedalPosition := accelerator.1 },
    rpm.2 || speed.2 || accelerator.2)

def decodeEngineData (frame : RawCanFrame) (state : VehicleState Signal) :
    VehicleState Signal × DecodeValidity :=
  decodeMessage isValid kEngineDataId (fun frame => bigEndianU16 frame 0 1 > 34000)
    applyEngineData frame state

/-- Undefined raw values withhold only their own signal. -/
def applyGear (frame : RawCanFrame) (state : VehicleState Signal) : VehicleState Signal × Bool :=
  let selector := selectorFromRaw (byte frame 0 &&& 0x07)
  let actualGear := actualGearFromRaw (byte frame 4 >>> 1 &&& 0x0f)
  let selected :=
    if selector = .unknown then invalidate state.selectorPosition frame.timestampUs
    else update state.selectorPosition selector frame.timestampUs
  let engaged :=
    if actualGear = .unknown then invalidate state.actualGear frame.timestampUs
    else update state.actualGear actualGear frame.timestampUs
  ({ state with selectorPosition := selected.1, actualGear := engaged.1 }, selected.2 || engaged.2)

def decodeGear (frame : RawCanFrame) (state : VehicleState Signal) :
    VehicleState Signal × DecodeValidity :=
  decodeMessage isValid kGearId (fun _ => false) applyGear frame state

def applyDoors (frame : RawCanFrame) (state : VehicleState Signal) : VehicleState Signal × Bool :=
  let liftgate := update state.liftgateOpen (bit frame 4 0x01) frame.timestampUs
  let rearRight := update state.rearRightDoorOpen (bit frame 4 0x04) frame.timestampUs
  let rearLeft := update state.rearLeftDoorOpen (bit frame 4 0x08) frame.timestampUs
  let frontLeft := update state.frontLeftDoorOpenRhd (bit frame 4 0x10) frame.timestampUs
  let frontRight := update state.frontRightDoorOpenRhd (bit frame 4 0x20) frame.timestampUs
  let unlocked := update state.doorsUnlocked (bit frame 3 0x40) frame.timestampUs
  ({ state with
      liftgateOpen := liftgate.1, rearRightDoorOpen := rearRight.1, rearLeftDoorOpen := rearLeft.1
      frontLeftDoorOpenRhd := frontLeft.1, frontRightDoorOpenRhd := frontRight.1
      doorsUnlocked := unlocked.1 },
    liftgate.2 || rearRight.2 || rearLeft.2 || frontLeft.2 || frontRight.2 || unlocked.2)

def decodeDoors (frame : RawCanFrame) (state : VehicleState Signal) :
    VehicleState Signal × DecodeValidity :=
  decodeMessage isValid kDoorsId (fun _ => false) applyDoors frame state

def applyBlinkInfo (frame : RawCanFrame) (state : VehicleState Signal) :
    VehicleState Signal × Bool :=
  let left := update state.leftIndicatorLamp (bit frame 2 0x04) frame.timestampUs
  let right := update state.rightIndicatorLamp (bit frame 2 0x08) frame.timestampUs
  let wiper := update state.wiperLow (bit frame 4 0x02) frame.timestampUs
  ({ state with
      leftIndicatorLamp := left.1, rightIndicatorLamp := right.1, wiperLow := wiper.1 },
    left.2 || right.2 || wiper.2)

def decodeBlinkInfo (frame : RawCanFrame) (state : VehicleState Signal) :
    VehicleState Signal × DecodeValidity :=
  decodeMessage isValid kBlinkInfoId (fun _ => false) applyBlinkInfo frame state

def applyTurnSwitch (frame : RawCanFrame) (state : VehicleState Signal) :
    VehicleState Signal × Bool :=
  let hazard := bit frame 1 (1 <<< 2)
  let right := bit frame 1 (1 <<< 4)
  let left := bit frame 1 (1 <<< 5)
  let frontWiper := frontWiperFromRaw (byte frame 2 >>> 4 &&& 0x03)
  let (state, edge) := state.updateTurn (normalizeTurn hazard left right) frame.timestampUs
  let hazardRequest := update state.hazardRequest hazard frame.timestampUs
  let leftRequest := update state.leftTurnRequest left frame.timestampUs
  let rightRequest := update state.rightTurnRequest right frame.timestampUs
  let wiper := update state.frontWiper frontWiper frame.timestampUs
  ({ state with
      hazardRequest := hazardRequest.1, leftTurnRequest := leftRequest.1
      rightTurnRequest := rightRequest.1, frontWiper := wiper.1 },
    edge.isSome || hazardRequest.2 || leftRequest.2 || rightRequest.2 || wiper.2)

def decodeTurnSwitch (frame : RawCanFrame) (state : VehicleState Signal) :
    VehicleState Signal × DecodeValidity :=
  decodeMessage isValid kTurnSwitchId (fun _ => false) applyTurnSwitch frame state

def applyBrakePedal (frame : RawCanFrame) (state : VehicleState Signal) :
    VehicleState Signal × Bool :=
  let pressed := update state.brakePressed (bit frame 0 0x10) frame.timestampUs
  ({ state with brakePressed := pressed.1 }, pressed.2)

def decodeBrakePedal (frame : RawCanFrame) (state : VehicleState Signal) :
    VehicleState Signal × DecodeValidity :=
  decodeMessage isValid kBrakePedalId (fun _ => false) applyBrakePedal frame state

/-- The raw codes are centred as integers before the one division, so that the zero of each scale
is exact. A negative pressure withholds only its own signal. -/
def applyAcceleration (frame : RawCanFrame) (state : VehicleState Signal) :
    VehicleState Signal × Bool :=
  let rawX := (byte frame 0 &&& 0x3f) <<< 7 ||| byte frame 1 >>> 1
  let rawY := (byte frame 1 &&& 0x01) <<< 12 ||| byte frame 2 <<< 4 ||| byte frame 3 >>> 4
  let pressureRaw := (byte frame 3 &&& 0x01) <<< 16 ||| byte frame 4 <<< 8 ||| byte frame 5
  let pressureBar := (toFloat ((pressureRaw : ℤ) - 40000)).div (toFloat 1000)
  let longitudinal := update state.longitudinalAccelerationMps2
    ((toFloat ((rawX : ℤ) - 4000)).div (toFloat 100)) frame.timestampUs
  let lateral := update state.lateralAccelerationMps2
    ((toFloat ((rawY : ℤ) - 4096)).div (toFloat 1000)) frame.timestampUs
  let pressure :=
    if pressureBar.lt (toFloat 0) then invalidate state.brakePressureBar frame.timestampUs
    else update state.brakePressureBar pressureBar frame.timestampUs
  ({ state with
      longitudinalAccelerationMps2 := longitudinal.1, lateralAccelerationMps2 := lateral.1
      brakePressureBar := pressure.1 },
    longitudinal.2 || lateral.2 || pressure.2)

def decodeAcceleration (frame : RawCanFrame) (state : VehicleState Signal) :
    VehicleState Signal × DecodeValidity :=
  decodeMessage isValid kAccelerationId (fun _ => false) applyAcceleration frame state

/-- Routes a frame to the decoder of its message. An invalid frame goes to the acceleration decoder
or else to the engine decoder, whose classification faults only their own messages. -/
def decode (frame : RawCanFrame) (state : VehicleState Signal) :
    VehicleState Signal × DecodeValidity :=
  if !isValid frame then
    if frame.identifier = kAccelerationId then decodeAcceleration isValid frame state
    else decodeEngineData isValid frame state
  else if frame.identifierFormat ≠ .standard ∨ frame.remoteRequest then
    if frame.identifier = kAccelerationId then decodeAcceleration isValid frame state
    else (state, .ignored)
  else if frame.identifier = kEngineDataId then decodeEngineData isValid frame state
  else if frame.identifier = kGearId then decodeGear isValid frame state
  else if frame.identifier = kDoorsId then decodeDoors isValid frame state
  else if frame.identifier = kBlinkInfoId then decodeBlinkInfo isValid frame state
  else if frame.identifier = kTurnSwitchId then decodeTurnSwitch isValid frame state
  else if frame.identifier = kBrakePedalId then decodeBrakePedal isValid frame state
  else if frame.identifier = kAccelerationId then decodeAcceleration isValid frame state
  else (state, .ignored)

end Decoders

/-- The turn state that a frame of the turn switch shows. -/
def turnOf (frame : RawCanFrame) : TurnState :=
  normalizeTurn (bit frame 1 (1 <<< 2)) (bit frame 1 (1 <<< 5)) (bit frame 1 (1 <<< 4))

end AccessoryController.Mazda.Candidate
