import AccessoryController.Mazda.Candidate
import AccessoryController.Mazda.TelemetryContracts

/-!
# The lighting output of the telemetry service

Every publication offers the lighting sink a command derived from the turn and brake readings, with
a deadline after which the sink must not keep it. An offer is made when the command differs from
the last one offered, when that one was refused, and at every heartbeat.

## Main definitions

* `LightingUpdate`: a command for the sink
* `lightingUpdate`: the command derived from a state
* `LightingState.publishLighting`: one publication
-/

namespace AccessoryController.Mazda

open VehicleCore
open VehicleCore.SignalSlots
open Candidate

/-- A command for the lighting sink. -/
structure LightingUpdate where
  turn : TurnState := .unknown
  availability : Availability := .noData
  brakePressed : Bool := false
  brakeAvailability : Availability := .noData
  validUntilUs : MonotonicTimestamp := 0
  deriving DecidableEq, Repr

/-- The health of a message as a decoder reports it. -/
structure HealthObservation where
  transport : TransportHealth
  message : MessageHealth
  signal : SignalHealth
  hasLastFrame : Bool
  lastFrameUs : MonotonicTimestamp
  hasLastAccepted : Bool
  lastAcceptedUs : MonotonicTimestamp
  faultTimestampUs : Option MonotonicTimestamp
  deriving DecidableEq, Repr

def kLightingHeartbeatUs : Microseconds := 100000

def isAvailableReading {T : Type} (reading : Reading T) : Bool :=
  reading.value.isSome &&
    (reading.availability == .fresh || reading.availability == .freshnessUnverified)

section Update

variable {Signal : Type → Type} [SignalSlots Signal] [Inhabited HealthObservation]

/-- The health of a message from its record; a default observation fills the rest. -/
def VehicleState.healthObservation (state : VehicleState Signal) (identifier : ℕ)
    (transport : TransportHealth) : HealthObservation :=
  let result : HealthObservation := { (default : HealthObservation) with transport }
  match state.messageHealthFor identifier with
  | none => result
  | some record =>
    { result with
      message := record.health
      hasLastFrame := record.hasFrame
      lastFrameUs := record.lastFrameUs
      hasLastAccepted := record.hasAccepted
      lastAcceptedUs := record.lastAcceptedUs
      faultTimestampUs := record.faultTimestampUs }

/-- The earlier of an optional deadline and a further one. -/
def earlier (deadline : Option MonotonicTimestamp) (other : MonotonicTimestamp) :
    Option MonotonicTimestamp :=
  some (deadline.elim other fun deadline => min deadline other)

/-- The deadline of the readings that light a command, of the transport's silence, and otherwise
of the next heartbeat. -/
def lightingDeadline (state : VehicleState Signal) (actionable brakePressed : Bool)
    (lastTransportReceiveUs : Option MonotonicTimestamp) (silenceTimeoutUs : Microseconds)
    (nowUs : MonotonicTimestamp) : MonotonicTimestamp :=
  let deadline : Option MonotonicTimestamp :=
    if actionable && hasValue state.turnState then
      (freshnessTimeoutUs state.turnState).map (saturatingAdd (lastUpdateUs state.turnState))
    else none
  let deadline :=
    if brakePressed && hasValue state.brakePressed then
      match freshnessTimeoutUs state.brakePressed with
      | some timeout => earlier deadline (saturatingAdd (lastUpdateUs state.brakePressed) timeout)
      | none => deadline
    else deadline
  let deadline :=
    match lastTransportReceiveUs with
    | some received => earlier deadline (saturatingAdd received silenceTimeoutUs)
    | none => deadline
  deadline.getD (saturatingAdd nowUs kLightingHeartbeatUs)

/-- The command derived from a state. A malformed turn frame can fault the message before any value
was accepted; the command tells that from having no data. -/
def lightingUpdate (state : VehicleState Signal) (transport : TransportHealth)
    (lastTransportReceiveUs : Option MonotonicTimestamp) (silenceTimeoutUs : Microseconds)
    (nowUs : MonotonicTimestamp) : LightingUpdate :=
  let turnReading := state.readingAt state.turnState kTurnSwitchId nowUs .reference transport
  let turnHealth := state.healthObservation kTurnSwitchId transport
  let brakeReading := state.readingAt state.brakePressed kBrakePedalId nowUs .confirmed transport
  let actionable := isAvailableReading turnReading && turnReading.value != some .unknown &&
    transport != .stopped && transport != .faulted && transport != .timedOut
  let brakePressed := brakeReading.availability == .fresh && brakeReading.value == some true
  let deadline :=
    lightingDeadline state actionable brakePressed lastTransportReceiveUs silenceTimeoutUs nowUs
  { turn := if actionable then turnReading.value.getD .unknown else .unknown
    availability :=
      if turnHealth.signal = .unavailable then .unavailable else turnReading.availability
    brakePressed
    brakeAvailability := brakeReading.availability
    validUntilUs := if deadline ≤ nowUs then nowUs else deadline }

end Update

/-- The last command offered and whether it was refused. -/
structure LightingState where
  sent : Bool := false
  failure : Bool := false
  turn : TurnState := .unknown
  availability : Availability := .noData
  brakePressed : Bool := false
  brakeAvailability : Availability := .noData
  nextHeartbeatUs : MonotonicTimestamp := 0
  deriving DecidableEq, Repr

namespace LightingState

/-- What offering a command leaves behind. -/
def offered (update : LightingUpdate) (accepted : Bool) (nowUs : MonotonicTimestamp) :
    LightingState where
  sent := true
  failure := !accepted
  turn := update.turn
  availability := update.availability
  brakePressed := update.brakePressed
  brakeAvailability := update.brakeAvailability
  nextHeartbeatUs := saturatingAdd nowUs kLightingHeartbeatUs

/-- The first command of a run is dark. -/
def publishStartupBlack (accepted : Bool) (nowUs : MonotonicTimestamp) : LightingState :=
  offered { validUntilUs := nowUs } accepted nowUs

/-- Offers a command unless it repeats the last one and no heartbeat is due; `accepted` is the
sink's answer. -/
def publishLighting (lighting : LightingState) (update : LightingUpdate) (accepted : Bool)
    (nowUs : MonotonicTimestamp) : LightingState × Option LightingUpdate :=
  let changed := !lighting.sent || update.turn != lighting.turn ||
    update.availability != lighting.availability || update.brakePressed != lighting.brakePressed ||
    update.brakeAvailability != lighting.brakeAvailability || lighting.failure
  let heartbeatDue := lighting.sent && nowUs ≥ lighting.nextHeartbeatUs
  if !changed && !heartbeatDue then (lighting, none)
  else (offered update accepted nowUs, some update)

end LightingState

end AccessoryController.Mazda
