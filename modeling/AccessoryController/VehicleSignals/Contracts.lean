import AccessoryController.Library.Binary32
import AccessoryController.VehicleCore.Contracts

/-!
# The signal contracts

Values, readings and request outcomes that know no vehicle make. A value is Boolean, a number or
a choice of an enumeration; numbers compare as single-precision numbers, so that a NaN differs
from itself.

## Main definitions

* `SignalId`, `SignalValue`, `SignalReading`: identifiers, tagged values and readings
* `SignalStatus`, `SignalResult`: the outcomes of a request
* `SignalSubscription`: the token of a subscription
* `SignalNotification`: what a provider delivers to its subscribers
* `SignalCapabilities`: what a signal supports
-/

namespace AccessoryController.VehicleSignals

open VehicleCore

/-- A runtime signal identifier; zero is reserved. -/
structure SignalId where
  value : ℕ := 0
  deriving DecidableEq, Repr

def SignalId.valid (id : SignalId) : Prop := id.value ≠ 0

instance (id : SignalId) : Decidable id.valid := inferInstanceAs (Decidable (_ ≠ _))

/-- The values beyond the enumerators are those that no enumerator names. -/
inductive SignalType
  | boolean | number | enum
  | unknown (beyond : Fin 253)
  deriving DecidableEq, Repr

inductive SignalUnit
  | none | kilometresPerHour | revolutionsPerMinute | metresPerSecondSquared
  | unknown (beyond : Fin 252)
  deriving DecidableEq, Repr

inductive SignalValue
  | boolean (value : Bool)
  | number (value : Binary32)
  | enumeration (value : ℕ)
  deriving DecidableEq, Repr

namespace SignalValue

def type : SignalValue → SignalType
  | .boolean _ => .boolean
  | .number _ => .number
  | .enumeration _ => .enum

def asNumber : SignalValue → Option Binary32
  | .number value => some value
  | _ => none

def asBoolean : SignalValue → Option Bool
  | .boolean value => some value
  | _ => none

def asEnumeration : SignalValue → Option ℕ
  | .enumeration value => some value
  | _ => none

/-- Equality of values; numbers compare as numbers. -/
def beq : SignalValue → SignalValue → Bool
  | .boolean left, .boolean right => left == right
  | .number left, .number right => left.eq right
  | .enumeration left, .enumeration right => left == right
  | _, _ => false

instance : BEq SignalValue := ⟨beq⟩

end SignalValue

abbrev SignalReading := Reading SignalValue

/-- The outcome of a request, apart from the availability of a reading. -/
inductive SignalStatus
  | ok | invalidSignal | unsupportedCapability | invalidArgument | capacityExceeded
  | invalidState | invalidSubscription | faulted | timeout
  deriving DecidableEq, Repr

/-- What a signal supports. -/
structure SignalCapabilities where
  read : Bool := false
  notify : Bool := false
  deriving DecidableEq, Repr

def SignalCapabilities.empty (capabilities : SignalCapabilities) : Bool :=
  !capabilities.read && !capabilities.notify

/-- The request of a consumer that a signal may support. -/
inductive SignalCapability
  | read | notify
  deriving DecidableEq, Repr

def SignalCapabilities.has (capabilities : SignalCapabilities) : SignalCapability → Bool
  | .read => capabilities.read
  | .notify => capabilities.notify

/-- The result of a request. -/
structure SignalResult (T : Type) where
  status : SignalStatus := .invalidState
  value : Option T := none

/-- The value of a request that succeeded. -/
def SignalResult.success? {T : Type} (result : SignalResult T) : Option T :=
  if result.status = .ok then result.value else none

/-- An opaque subscription token; its bits belong to the provider that issued it, and zero is
reserved. -/
structure SignalSubscription where
  providerBits : BitVec 64 := 0
  deriving DecidableEq, Repr

/-- One latest-state notice of a signal. -/
structure SignalNotification where
  id : SignalId := {}
  current : SignalReading := {}
  initial : Bool := false
  becameUnavailable : Bool := false
  recovered : Bool := false
  coalesced : Bool := false
  deriving DecidableEq, Repr

end AccessoryController.VehicleSignals
