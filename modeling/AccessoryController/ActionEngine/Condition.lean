import AccessoryController.ActionEngine.Config
import AccessoryController.VehicleSignals.Catalog

/-!
# Conditions on readings

A condition is resolved against the catalogue once, when its rule is added, and is then evaluated
on readings. A reading that is not actionable has no verdict.

## Main definitions

* `actionableValue`: the value of a reading that a consumer acts on
* `ResolvedCondition.evaluate`: the verdict of a condition on a reading
* `resolveThrough`: the resolution of a condition with its failures in order
-/

namespace AccessoryController.ActionEngine

open VehicleCore VehicleSignals

/-- The availability satisfies the requirement. -/
def FreshnessRequirement.meets (requirement : FreshnessRequirement) (availability : Availability) :
    Bool :=
  availability == .fresh ||
    (availability == .freshnessUnverified && requirement == .freshOrUnverified)

/-- The value of a reading that is present, of the type asked for, finite and available enough. -/
def actionableValue (reading : SignalReading) (type : SignalType)
    (requirement : FreshnessRequirement) : Option SignalValue :=
  match reading.value with
  | none => none
  | some value =>
    if value.type ≠ type ∨ !requirement.meets reading.availability then none
    else if value.asNumber.any fun number => !number.isFinite then none
    else some value

/-- A condition with its signal and its operand resolved. -/
structure ResolvedCondition where
  signal : SignalId := {}
  comparison : Comparison := .equal
  operand : SignalValue := .boolean false
  freshness : FreshnessRequirement := .fresh
  deriving DecidableEq, Repr

/-- The comparison of a value to the operand; values without a number compare as zero. -/
def ResolvedCondition.holds (condition : ResolvedCondition) (value : SignalValue) : Bool :=
  let left := value.asNumber.getD ⟨0⟩
  let right := condition.operand.asNumber.getD ⟨0⟩
  match condition.comparison with
  | .equal => value == condition.operand
  | .notEqual => !(value == condition.operand)
  | .less => left.lt right
  | .lessOrEqual => left.le right
  | .greater => right.lt left
  | .greaterOrEqual => right.le left
  | .unknown _ => false

/-- The verdict of a condition; a reading that is not actionable has none. -/
def ResolvedCondition.evaluate (condition : ResolvedCondition) (reading : SignalReading) :
    Option Bool :=
  (actionableValue reading condition.operand.type condition.freshness).map condition.holds

def Comparison.isOrdered (comparison : Comparison) : Bool :=
  comparison != .equal && comparison != .notEqual

/-- The operand of a condition as a value of the signal, whose type it has. -/
def resolveOperand (signal : SignalMetadata) (condition : SignalCondition)
    (freshness : FreshnessRequirement) : Except ConfigStatus ResolvedCondition :=
  let resolved := fun value : SignalValue =>
    (⟨signal.id, condition.comparison, value, freshness⟩ : ResolvedCondition)
  match condition.operand with
  | .boolean value => .ok (resolved (.boolean value))
  | .number value => .ok (resolved (.number value))
  | .choice key =>
    match signal.findChoice key with
    | none => .error .unknownChoice
    | some choice => .ok (resolved (.enumeration choice.value))

/-- The resolution of a condition; `delivery` is how the rule consumes the signal. -/
def resolveThrough (catalog : SignalCatalogView) (condition : SignalCondition)
    (freshness : FreshnessRequirement) (delivery : SignalCapability) :
    Except ConfigStatus ResolvedCondition :=
  match catalog.findKey condition.signalKey with
  | none => .error .unknownSignal
  | some signal =>
    if !signal.capabilities.has delivery then .error .unsupportedCapability
    else if condition.operand.type ≠ signal.type then .error .typeMismatch
    else if !(condition.operand.asNumber.getD ⟨0⟩).isFinite then .error .invalidOperand
    else if condition.comparison.isOrdered ∧ signal.type ≠ .number then
      .error .unsupportedComparison
    else resolveOperand signal condition freshness

def resolveCondition (catalog : SignalCatalogView) (condition : SignalCondition)
    (freshness : FreshnessRequirement) : Except ConfigStatus ResolvedCondition :=
  resolveThrough catalog condition freshness .notify

def resolveSampledCondition (catalog : SignalCatalogView) (condition : SignalCondition)
    (freshness : FreshnessRequirement) : Except ConfigStatus ResolvedCondition :=
  resolveThrough catalog condition freshness .read

/-- An actionable number is finite. -/
theorem isFinite_of_actionableValue {reading : SignalReading} {type : SignalType}
    {requirement : FreshnessRequirement} {value : SignalValue}
    (h : actionableValue reading type requirement = some value) :
    value.type = type ∧ ∀ number, value.asNumber = some number → number.isFinite = true := by
  unfold actionableValue at h
  cases hvalue : reading.value with
  | none => simp [hvalue] at h
  | some present =>
    simp only [hvalue] at h
    split at h
    · cases h
    rename_i hmeets
    split at h
    · cases h
    rename_i hfinite
    obtain rfl := Option.some.inj h
    refine ⟨?_, fun number hnumber => ?_⟩
    · by_contra htype
      exact hmeets (.inl htype)
    · simpa [hnumber] using hfinite

end AccessoryController.ActionEngine
