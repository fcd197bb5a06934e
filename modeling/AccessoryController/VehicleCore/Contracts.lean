import Mathlib.Algebra.Group.Nat.Defs
import Mathlib.Data.List.Basic

/-!
# The value contracts of the vehicle core

The plain values that the signal providers, the notification channels and the decoders exchange:
readings with their availability and validation, raw CAN frames, and the health states of a
transport and of a message. The core library itself lives outside the repository; only the
values its consumers name are given here.

## Main definitions

* `Reading`: a value with its availability and its validation
* `RawCanFrame`: a received frame
* `TransportHealth`, `MessageHealth`: the evidence that can withhold a value
-/

namespace AccessoryController.VehicleCore

/-- Microseconds on the monotonic clock. -/
abbrev MonotonicTimestamp := ℕ

/-- A span of time. -/
abbrev Microseconds := ℕ

/-- The largest timestamp of the 64-bit clock. -/
def maxTimestamp : MonotonicTimestamp := 2 ^ 64 - 1

inductive Availability
  | noData | fresh | stale | freshnessUnverified | unavailable
  deriving DecidableEq, Repr

/-- The values beyond the enumerators are those that no enumerator names. -/
inductive ValidationStatus
  | reference | observed | confirmed
  | unknown (beyond : Fin 253)
  deriving DecidableEq, Repr

/-- A reading: availability and validation are independent of whether a value is present. -/
structure Reading (T : Type) where
  value : Option T := none
  availability : Availability := .noData
  validation : ValidationStatus := .reference
  deriving DecidableEq, Repr

/-- The health of the transport that delivers the frames. -/
inductive TransportHealth
  | stopped | awaitingTraffic | live | timedOut | faulted
  deriving DecidableEq, Repr

/-- The health of one message. -/
inductive MessageHealth
  | unknown | healthy | faulted
  deriving DecidableEq, Repr

inductive SignalHealth
  | noData | available | unavailable
  deriving DecidableEq, Repr

/-- What decoding made of a frame. -/
inductive DecodeValidity
  | ignored | malformed | decoded
  deriving DecidableEq, Repr

inductive CanIdentifierFormat
  | standard | extended
  deriving DecidableEq, Repr

/-- The payload bytes of a classic frame. -/
def kCanClassicPayloadBytes : ℕ := 8

/-- A received frame. -/
structure RawCanFrame where
  timestampUs : MonotonicTimestamp := 0
  identifier : ℕ := 0
  identifierFormat : CanIdentifierFormat := .standard
  remoteRequest : Bool := false
  busId : ℕ := 0
  dlc : ℕ := 0
  data : Vector UInt8 kCanClassicPayloadBytes := Vector.replicate kCanClassicPayloadBytes 0

end AccessoryController.VehicleCore
