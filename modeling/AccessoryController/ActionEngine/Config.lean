import AccessoryController.Library.Binary32Arithmetic
import AccessoryController.VehicleSignals.Contracts

/-!
# Actions and rule configurations

The commands that the engine sends to its sinks, and the persisted form of its rules. Signals and
choices are named by their catalogue keys.

## Main definitions

* `ActionCommand`, `ActionCommand.eq`: a command and its equality, which compares levels as numbers
* `StateRuleConfig`, `EventRuleConfig`, `RangeRuleConfig`, `SampledStateRuleConfig`: the rules
-/

namespace AccessoryController.ActionEngine

open VehicleSignals

/-- A configured action; zero is reserved. -/
structure ActionId where
  value : ℕ := 0
  deriving DecidableEq, Repr

def ActionId.valid (id : ActionId) : Prop := id.value ≠ 0

instance (id : ActionId) : Decidable id.valid := inferInstanceAs (Decidable (_ ≠ _))

inductive ActionCommandKind
  | activate | deactivate | trigger | setLevel
  deriving DecidableEq, Repr

/-- A command; the level is meaningful for `setLevel` only, and zero otherwise. -/
structure ActionCommand where
  action : ActionId := {}
  kind : ActionCommandKind := .deactivate
  level : Binary32 := ⟨0⟩
  deriving DecidableEq, Repr

/-- Equality of commands; levels compare as numbers. -/
def ActionCommand.eq (left right : ActionCommand) : Bool :=
  left.action == right.action && left.kind == right.kind && left.level.eq right.level

/-- The outcome of a configuration call. -/
inductive ConfigStatus
  | ok | invalidState | capacityExceeded | duplicateSink | invalidAction | duplicateAction
  | unknownSignal | unsupportedCapability | typeMismatch | unknownChoice | invalidOperand
  | unsupportedComparison | invalidRange | invalidHysteresis
  deriving DecidableEq, Repr

/-- The right-hand side of a condition; a choice is named by its key. -/
inductive RuleOperand
  | boolean (value : Bool)
  | number (value : Binary32)
  | choice (key : List UInt8)
  deriving DecidableEq, Repr

namespace RuleOperand

def asBoolean : RuleOperand → Option Bool
  | .boolean value => some value
  | _ => none

def asNumber : RuleOperand → Option Binary32
  | .number value => some value
  | _ => none

def choiceKey : RuleOperand → Option (List UInt8)
  | .choice key => some key
  | _ => none

/-- The type of the signals that an operand compares to. -/
def type : RuleOperand → SignalType
  | .boolean _ => .boolean
  | .number _ => .number
  | .choice _ => .enum

end RuleOperand

/-- The values beyond the enumerators are those that no enumerator names. -/
inductive Comparison
  | equal | notEqual | less | lessOrEqual | greater | greaterOrEqual
  | unknown (beyond : Fin 250)
  deriving DecidableEq, Repr

/-- The availabilities that a consumer acts on. -/
inductive FreshnessRequirement
  | fresh | freshOrUnverified
  | unknown (beyond : Fin 254)
  deriving DecidableEq, Repr

structure SignalCondition where
  signalKey : List UInt8 := []
  comparison : Comparison := .equal
  operand : RuleOperand := .boolean false
  deriving DecidableEq, Repr

structure StateRuleConfig where
  condition : SignalCondition := {}
  action : ActionId := {}
  freshness : FreshnessRequirement := .fresh
  deriving DecidableEq, Repr

/-- The optional release threshold is the boundary at which an ordered condition, once it holds,
stops to hold. -/
structure SampledStateRuleConfig where
  condition : SignalCondition := {}
  action : ActionId := {}
  freshness : FreshnessRequirement := .fresh
  releaseThreshold : Option Binary32 := none
  deriving DecidableEq, Repr

inductive EventEdge
  | becomesTrue | becomesFalse
  | unknown (beyond : Fin 254)
  deriving DecidableEq, Repr

structure EventRuleConfig where
  condition : SignalCondition := {}
  edge : EventEdge := .becomesTrue
  action : ActionId := {}
  freshness : FreshnessRequirement := .fresh
  deriving DecidableEq, Repr

/-- A closed interval, traversed from its first bound to its second. -/
structure NumericRange where
  fromBound : Binary32 := ⟨0⟩
  toBound : Binary32 := ⟨0⟩
  deriving DecidableEq, Repr

structure RangeRuleConfig where
  signalKey : List UInt8 := []
  input : NumericRange := {}
  output : NumericRange := {}
  action : ActionId := {}
  freshness : FreshnessRequirement := .fresh
  deriving DecidableEq, Repr

end AccessoryController.ActionEngine
