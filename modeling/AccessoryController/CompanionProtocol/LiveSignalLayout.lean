import AccessoryController.CompanionProtocol.CatalogExport

/-!
# The live signal layout

The normative table of the live signals, by their catalogue keys, and the status codes of the
wire. Only a fresh reading is reported as fresh; a signal whose freshness is unset by policy is
never reported as fresh.

## Main definitions

* `SignalStatusCode`, `statusCode`, `failureStatusCode`: the codes of a reading and of a failed read
* `LiveSignalSlot`, `liveSignalSlots`: the table
* `freshnessIsUnset`, `reportedStatus`: the status that a signal is reported with
-/

namespace AccessoryController.CompanionProtocol

open VehicleCore VehicleSignals

inductive SignalStatusCode
  | noData | fresh | stale | freshnessUnverified | unavailable | readFailed | notSupported
  deriving DecidableEq, Repr

def SignalStatusCode.value : SignalStatusCode → ℕ
  | .noData => 0
  | .fresh => 1
  | .stale => 2
  | .freshnessUnverified => 3
  | .unavailable => 4
  | .readFailed => 5
  | .notSupported => 6

/-- The code of an availability. -/
def statusCode : Availability → SignalStatusCode
  | .noData => .noData
  | .fresh => .fresh
  | .stale => .stale
  | .freshnessUnverified => .freshnessUnverified
  | .unavailable => .unavailable

/-- The code of a failed read. -/
def failureStatusCode : SignalStatus → SignalStatusCode
  | .invalidSignal | .unsupportedCapability => .notSupported
  | _ => .readFailed

/-! ### The signal table -/

structure LiveChoiceCode where
  key : List UInt8 := []
  code : UInt8 := 0
  deriving DecidableEq, Repr

/-- One row of the table. The position is a byte offset, or a bit for a Boolean; the scale is in
wire units for each engineering unit. -/
structure LiveSignalSlot where
  key : List UInt8 := []
  type : SignalType := .boolean
  position : ℕ := 0
  scale : ℕ := 0
  choices : List LiveChoiceCode := []
  freshnessUnset : Bool := false
  signedNumber : Bool := false
  deriving DecidableEq, Repr

/-- Choice codes by position. -/
def choiceCodes (keys : List String) : List LiveChoiceCode :=
  keys.zipIdx.map fun key => ⟨ascii key.1, UInt8.ofNat key.2⟩

def kTurnCodes : List LiveChoiceCode :=
  choiceCodes ["unknown", "off", "left", "right", "hazard"]

def kSelectorCodes : List LiveChoiceCode :=
  choiceCodes ["unknown", "shifting", "park", "reverse", "neutral", "drive"]

def kGearCodes : List LiveChoiceCode :=
  choiceCodes ["unknown", "park_or_neutral", "park", "neutral", "reverse", "first", "second",
    "third", "fourth", "fifth", "sixth", "shifting"]

def kWiperCodes : List LiveChoiceCode :=
  choiceCodes ["unknown", "off", "on", "high", "intermittent"]

namespace LiveSignalSlot

def number (key : String) (offset scale : ℕ) (signedNumber : Bool) : LiveSignalSlot :=
  { key := ascii key, type := .number, position := offset, scale, signedNumber }

def enumeration (key : String) (offset : ℕ) (codes : List LiveChoiceCode) : LiveSignalSlot :=
  { key := ascii key, type := .enum, position := offset, choices := codes }

def boolean (key : String) (bit : ℕ) (freshnessUnset : Bool) : LiveSignalSlot :=
  { key := ascii key, type := .boolean, position := bit, freshnessUnset }

end LiveSignalSlot

open LiveSignalSlot in
/-- The signal table in normative order. -/
def liveSignalSlots : List LiveSignalSlot :=
  [number "vehicle.engine_rpm" 3 4 false,
    number "vehicle.speed_kph" 5 100 false,
    enumeration "vehicle.turn_state" 7 kTurnCodes,
    enumeration "vehicle.selector_position" 8 kSelectorCodes,
    enumeration "vehicle.actual_gear" 9 kGearCodes,
    enumeration "vehicle.wiper.front_position" 10 kWiperCodes,
    boolean "vehicle.hazard_request" 0 false,
    boolean "vehicle.turn_request.left" 1 false,
    boolean "vehicle.turn_request.right" 2 false,
    boolean "vehicle.indicator_lamp.left" 3 false,
    boolean "vehicle.indicator_lamp.right" 4 false,
    boolean "vehicle.liftgate_open" 5 false,
    boolean "vehicle.door.rear_right" 6 false,
    boolean "vehicle.door.rear_left" 7 false,
    boolean "vehicle.door.front_left_rhd" 8 false,
    boolean "vehicle.door.front_right_rhd" 9 false,
    boolean "vehicle.doors_unlocked" 10 false,
    boolean "vehicle.wiper.low" 11 false,
    -- the brake has no freshness policy, so that its slot is never fresh
    boolean "vehicle.brake_pressed" 12 true,
    number "vehicle.acceleration.longitudinal" 24 100 true,
    number "vehicle.acceleration.lateral" 26 1000 true]

/-! ### The status of a reading -/

/-- The policy of the first slot of a signal. -/
def freshnessIsUnset (metadata : SignalMetadata) : Bool :=
  match liveSignalSlots.find? fun slot => slot.key == metadata.key && slot.type == metadata.type with
  | some slot => slot.freshnessUnset
  | none => false

/-- The status of a reading; a fresh reading of a signal without a freshness policy is demoted. -/
def reportedStatus (metadata : SignalMetadata) (availability : Availability) : SignalStatusCode :=
  let status := statusCode availability
  if freshnessIsUnset metadata = true ∧ status = .fresh then .freshnessUnverified else status

end AccessoryController.CompanionProtocol
