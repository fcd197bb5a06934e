import AccessoryController.VehicleCore.Signal

/-!
# A documented slot

The slots are a parameter of the vehicle state. The slot below behaves as the contract of the core
library documents, so that runs over it can be evaluated.

## Main definitions

* `DocumentedSlot`: a slot with its operations and their laws
-/

namespace AccessoryController.VehicleCore

/-- A slot that behaves as the contract of the core library documents. -/
structure DocumentedSlot (T : Type) where
  value : T
  hasValue : Bool := false
  lastUpdateUs : MonotonicTimestamp := 0
  freshnessTimeoutUs : Option Microseconds := none
  valid : Bool := false
  invalidated : Bool := false

instance : SignalSlots DocumentedSlot where
  construct timeout := { value := default, freshnessTimeoutUs := timeout }
  value := DocumentedSlot.value
  hasValue := DocumentedSlot.hasValue
  lastUpdateUs := DocumentedSlot.lastUpdateUs
  freshnessTimeoutUs := DocumentedSlot.freshnessTimeoutUs
  isValid := DocumentedSlot.valid
  setFreshnessTimeout slot timeout := { slot with freshnessTimeoutUs := timeout }
  update slot value nowUs :=
    if slot.hasValue && nowUs < slot.lastUpdateUs then (slot, false)
    else if slot.hasValue && nowUs == slot.lastUpdateUs then (slot, slot.value == value)
    else
      ({ slot with
          value, hasValue := true, lastUpdateUs := nowUs, valid := true, invalidated := false },
        true)
  invalidate slot nowUs :=
    if slot.hasValue && nowUs ≤ slot.lastUpdateUs then (slot, false)
    else ({ slot with valid := false, invalidated := true }, true)
  refresh slot nowUs :=
    { slot with
      valid := slot.valid &&
        slot.freshnessTimeoutUs.all fun timeout => nowUs - slot.lastUpdateUs ≤ timeout }
  statusAt slot nowUs :=
    if !slot.hasValue then .noData
    else if slot.invalidated then .unavailable
    else
      match slot.freshnessTimeoutUs with
      | none => .freshnessUnverified
      | some timeout => if nowUs - slot.lastUpdateUs ≤ timeout then .fresh else .stale
  snapshot slot _ validation :=
    { value := if slot.hasValue then some slot.value else none, validation }

instance : LawfulSignalSlots DocumentedSlot where
  hasValue_construct _ := rfl
  hasValue_setFreshnessTimeout _ _ := rfl
  freshnessTimeoutUs_update slot value nowUs := by
    dsimp only [SignalSlots.update, SignalSlots.freshnessTimeoutUs]
    repeat' split
    all_goals rfl
  freshnessTimeoutUs_invalidate slot nowUs := by
    dsimp only [SignalSlots.invalidate, SignalSlots.freshnessTimeoutUs]
    split <;> rfl
  freshnessTimeoutUs_refresh _ _ := rfl
  statusAt_eq_of_age slot nowUs laterUs _ age := by
    dsimp only [SignalSlots.statusAt]
    cases htimeout : slot.freshnessTimeoutUs with
    | none => rfl
    | some timeout =>
      have hage : nowUs - slot.lastUpdateUs ≤ timeout ↔ laterUs - slot.lastUpdateUs ≤ timeout :=
        age timeout htimeout
      simp only [hage]
  snapshot_value _ _ _ _ := rfl
  snapshot_validation _ _ _ := rfl

end AccessoryController.VehicleCore
