import AccessoryController.Library.Board
import AccessoryController.VehicleCore.Contracts

/-!
# Signal slots

A signal slot keeps the last accepted value of a signal with the time of its acceptance and the
timeout of its freshness. The slot itself belongs to the core library; its consumers rely on the
operations of `SignalSlots` and on the laws of `LawfulSignalSlots`, which its contract documents.

## Main definitions

* `SignalSlots Signal`: the operations of the slots `Signal T`
* `LawfulSignalSlots Signal`: what the consumers rely on
* `saturatingAdd`: addition on the 64-bit clock

## Main results

* `statusAt_congr`: the status of a slot changes only when the clock passes its deadline
-/

namespace AccessoryController.VehicleCore

/-- The operations of the signal slots, over the values of any type. -/
class SignalSlots (Signal : Type → Type) where
  /-- An empty slot with a freshness timeout. -/
  construct {T : Type} [Inhabited T] (timeout : Option Microseconds) : Signal T
  value {T : Type} : Signal T → T
  hasValue {T : Type} : Signal T → Bool
  lastUpdateUs {T : Type} : Signal T → MonotonicTimestamp
  freshnessTimeoutUs {T : Type} : Signal T → Option Microseconds
  isValid {T : Type} : Signal T → Bool
  setFreshnessTimeout {T : Type} : Signal T → Option Microseconds → Signal T
  /-- Offers a value observed at a time; the flag says whether it was accepted. -/
  update {T : Type} [BEq T] : Signal T → T → MonotonicTimestamp → Signal T × Bool
  /-- Retains the value but marks it unusable. -/
  invalidate {T : Type} : Signal T → MonotonicTimestamp → Signal T × Bool
  refresh {T : Type} : Signal T → MonotonicTimestamp → Signal T
  statusAt {T : Type} : Signal T → MonotonicTimestamp → Availability
  snapshot {T : Type} : Signal T → MonotonicTimestamp → ValidationStatus → Reading T

open SignalSlots

/-- The documented behaviour of the slots. A slot has no value before its first update; no
operation but `setFreshnessTimeout` changes its timeout; its status compares its age, which is
zero for an earlier time, with the timeout, and ignores the time when there is none; a snapshot
retains the value. -/
class LawfulSignalSlots (Signal : Type → Type) [SignalSlots Signal] : Prop where
  hasValue_construct {T : Type} [Inhabited T] (timeout : Option Microseconds) :
    hasValue (construct timeout : Signal T) = false
  hasValue_setFreshnessTimeout {T : Type} (signal : Signal T) (timeout : Option Microseconds) :
    hasValue (setFreshnessTimeout signal timeout) = hasValue signal
  freshnessTimeoutUs_update {T : Type} [BEq T] (signal : Signal T) (value : T)
    (nowUs : MonotonicTimestamp) :
    freshnessTimeoutUs (update signal value nowUs).1 = freshnessTimeoutUs signal
  freshnessTimeoutUs_invalidate {T : Type} (signal : Signal T) (nowUs : MonotonicTimestamp) :
    freshnessTimeoutUs (invalidate signal nowUs).1 = freshnessTimeoutUs signal
  freshnessTimeoutUs_refresh {T : Type} (signal : Signal T) (nowUs : MonotonicTimestamp) :
    freshnessTimeoutUs (refresh signal nowUs) = freshnessTimeoutUs signal
  statusAt_eq_of_age {T : Type} (signal : Signal T) (nowUs laterUs : MonotonicTimestamp) :
    hasValue signal = true →
    (∀ timeout, freshnessTimeoutUs signal = some timeout →
      (nowUs - lastUpdateUs signal ≤ timeout ↔ laterUs - lastUpdateUs signal ≤ timeout)) →
    statusAt signal nowUs = statusAt signal laterUs
  snapshot_value {T : Type} (signal : Signal T) (nowUs laterUs : MonotonicTimestamp)
    (validation : ValidationStatus) :
    (snapshot signal nowUs validation).value = (snapshot signal laterUs validation).value
  snapshot_validation {T : Type} (signal : Signal T) (nowUs : MonotonicTimestamp)
    (validation : ValidationStatus) : (snapshot signal nowUs validation).validation = validation

attribute [simp] LawfulSignalSlots.hasValue_construct
  LawfulSignalSlots.hasValue_setFreshnessTimeout LawfulSignalSlots.freshnessTimeoutUs_update
  LawfulSignalSlots.freshnessTimeoutUs_invalidate LawfulSignalSlots.freshnessTimeoutUs_refresh
  LawfulSignalSlots.snapshot_validation

/-- A sum on the 64-bit clock, which stops at its largest timestamp. -/
def saturatingAdd (value delta : ℕ) : ℕ :=
  if value > maxTimestamp - delta then maxTimestamp else value + delta

/-- A clock reading is past a saturated deadline exactly when the age exceeds the timeout. -/
theorem saturatingAdd_lt {value delta nowUs : ℕ} (bounded : nowUs ≤ maxTimestamp) :
    saturatingAdd value delta < nowUs ↔ delta < nowUs - value := by
  rw [saturatingAdd]
  split
  · constructor <;> intro h <;> omega
  · constructor <;> intro h <;> omega

section Deadline

variable {Signal : Type → Type} [SignalSlots Signal] {T : Type}

/-- The last time at which the value of a slot is fresh, where that is bounded. -/
def deadline (signal : Signal T) : Option MonotonicTimestamp :=
  if hasValue signal then
    (freshnessTimeoutUs signal).map (saturatingAdd (lastUpdateUs signal))
  else none

/-- **The status of a slot changes only when the clock passes its deadline.** -/
theorem statusAt_congr [LawfulSignalSlots Signal] {signal : Signal T}
    {nowUs laterUs : MonotonicTimestamp} (value : hasValue signal = true)
    (now : nowUs ≤ maxTimestamp) (later : laterUs ≤ maxTimestamp)
    (same : Board.Passed (deadline signal) nowUs ↔ Board.Passed (deadline signal) laterUs) :
    statusAt signal nowUs = statusAt signal laterUs := by
  apply LawfulSignalSlots.statusAt_eq_of_age signal nowUs laterUs value
  intro timeout bound
  have hdeadline : deadline signal = some (saturatingAdd (lastUpdateUs signal) timeout) := by
    simp [deadline, value, bound]
  rw [hdeadline, Board.passed_some, Board.passed_some, saturatingAdd_lt now,
    saturatingAdd_lt later] at same
  rw [← Nat.not_lt, ← Nat.not_lt, same]

end Deadline

end AccessoryController.VehicleCore
