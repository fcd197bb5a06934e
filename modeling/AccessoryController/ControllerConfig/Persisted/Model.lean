import AccessoryController.ControllerConfig.NvsConfigStore
import AccessoryController.LocalArgbActions.Bindings

/-!
# The persisted configuration model

A document describes vehicle signals that drive rules, rules that drive named actions, and outputs
that are bound to the actions. Persisted integers keep the range that a document can express, so
that validation decides whether a value fits. Strings are byte strings.

## Main definitions

* `ControllerConfig`: the top-level document
* `Rule`, `OutputBinding`: its rules and its output bindings
* `nameOf`, `parseName`: the persisted names of the enumerations
-/

open AccessoryController.ControllerConfig (Bytes)

namespace AccessoryController.Persisted

open ActionEngine (Comparison FreshnessRequirement EventEdge NumericRange)
open LocalArgb (FillDirection)
open LocalArgbActions (LedEffect)

def kSchemaVersion : ℤ := 1

/-! ### The limits of the output catalogue -/

def kPixelCountMin : ℤ := 100
def kPixelCountMax : ℤ := 300
def kPixelCountDefault : ℤ := 100
def kZonePixels : ℤ := 300
def kColorMin : ℤ := 0
def kColorMax : ℤ := 255
def kPriorityMin : ℤ := 0
def kPriorityMax : ℤ := 255
def kPriorityDefault : ℤ := 100
def kDurationMsMin : ℤ := 1
def kMaxTransientDurationMs : ℤ := 5000

/-! ### Actions and rules -/

/-- An action is declared by its name. -/
structure Action where
  name : Bytes := []
  deriving DecidableEq, Repr

/-- The right-hand side of a condition. -/
inductive Operand
  | boolean (value : Bool)
  | number (value : Binary32)
  | choice (key : Bytes)
  deriving DecidableEq, Repr

structure Condition where
  signalKey : Bytes := []
  comparison : Comparison := .equal
  operand : Operand := .boolean false
  deriving DecidableEq, Repr

structure StateRule where
  action : Bytes := []
  condition : Condition := {}
  freshness : FreshnessRequirement := .fresh
  deriving DecidableEq, Repr

structure SampledStateRule where
  action : Bytes := []
  condition : Condition := {}
  freshness : FreshnessRequirement := .fresh
  releaseThreshold : Option Binary32 := none
  deriving DecidableEq, Repr

structure EventRule where
  action : Bytes := []
  condition : Condition := {}
  edge : EventEdge := .becomesTrue
  freshness : FreshnessRequirement := .fresh
  deriving DecidableEq, Repr

structure RangeRule where
  action : Bytes := []
  signalKey : Bytes := []
  input : NumericRange := {}
  output : NumericRange := {}
  freshness : FreshnessRequirement := .fresh
  deriving DecidableEq, Repr

inductive Rule
  | state (rule : StateRule)
  | sampledState (rule : SampledStateRule)
  | event (rule : EventRule)
  | range (rule : RangeRule)
  deriving DecidableEq, Repr

inductive RuleType
  | state | sampledState | event | range
  deriving DecidableEq, Repr

namespace Rule

def type : Rule → RuleType
  | .state _ => .state
  | .sampledState _ => .sampledState
  | .event _ => .event
  | .range _ => .range

/-- The name of the action that a rule drives. -/
def action : Rule → Bytes
  | .state rule => rule.action
  | .sampledState rule => rule.action
  | .event rule => rule.action
  | .range rule => rule.action

end Rule

/-! ### Outputs -/

structure LedZone where
  start : ℤ := 0
  length : ℤ := 0
  direction : FillDirection := .startToEnd
  deriving DecidableEq, Repr

structure Rgb where
  red : ℤ := 0
  green : ℤ := 0
  blue : ℤ := 0
  deriving DecidableEq, Repr

structure LedEffectBinding where
  action : Bytes := []
  effect : LedEffect := .leftTurn
  priority : ℤ := kPriorityDefault
  deriving DecidableEq, Repr

structure LedFillBinding where
  action : Bytes := []
  zone : LedZone := {}
  color : Rgb := {}
  priority : ℤ := kPriorityDefault
  deriving DecidableEq, Repr

structure LedTransientBinding where
  action : Bytes := []
  zone : LedZone := {}
  color : Rgb := {}
  durationMs : ℤ := 0
  priority : ℤ := kPriorityDefault
  deriving DecidableEq, Repr

structure LedSolidBinding where
  action : Bytes := []
  zone : LedZone := {}
  color : Rgb := {}
  priority : ℤ := kPriorityDefault
  deriving DecidableEq, Repr

inductive OutputBinding
  | ledEffect (binding : LedEffectBinding)
  | ledFill (binding : LedFillBinding)
  | ledTransient (binding : LedTransientBinding)
  | ledSolid (binding : LedSolidBinding)
  deriving DecidableEq, Repr

inductive OutputType
  | ledEffect | ledFill | ledTransient | ledSolid
  deriving DecidableEq, Repr

namespace OutputBinding

def type : OutputBinding → OutputType
  | .ledEffect _ => .ledEffect
  | .ledFill _ => .ledFill
  | .ledTransient _ => .ledTransient
  | .ledSolid _ => .ledSolid

/-- The name of the action that an output is bound to. -/
def action : OutputBinding → Bytes
  | .ledEffect binding => binding.action
  | .ledFill binding => binding.action
  | .ledTransient binding => binding.action
  | .ledSolid binding => binding.action

end OutputBinding

/-- The persisted document. -/
structure ControllerConfig where
  version : ℤ := kSchemaVersion
  pixelCount : ℤ := kPixelCountDefault
  actions : List Action := []
  rules : List Rule := []
  outputs : List OutputBinding := []
  deriving DecidableEq, Repr

/-! ### Persisted names -/

/-- The bytes of an ASCII text. -/
def ascii (text : String) : Bytes := text.toList.map Char.toUInt8

/-- An enumeration with its persisted names. -/
class Names (Enum : Type) where
  table : List (Enum × Bytes)

instance : Names RuleType where
  table := [(.state, ascii "state"), (.sampledState, ascii "sampled_state"),
    (.event, ascii "event"), (.range, ascii "range")]

instance : Names OutputType where
  table := [(.ledEffect, ascii "led_effect"), (.ledFill, ascii "led_fill"),
    (.ledTransient, ascii "led_transient"), (.ledSolid, ascii "led_solid")]

instance : Names Comparison where
  table := [(.equal, ascii "equal"), (.notEqual, ascii "not_equal"), (.less, ascii "less"),
    (.lessOrEqual, ascii "less_or_equal"), (.greater, ascii "greater"),
    (.greaterOrEqual, ascii "greater_or_equal")]

instance : Names FreshnessRequirement where
  table := [(.fresh, ascii "fresh"), (.freshOrUnverified, ascii "fresh_or_unverified")]

instance : Names EventEdge where
  table := [(.becomesTrue, ascii "becomes_true"), (.becomesFalse, ascii "becomes_false")]

instance : Names LedEffect where
  table := [(.leftTurn, ascii "left_turn"), (.rightTurn, ascii "right_turn"),
    (.brake, ascii "brake")]

instance : Names FillDirection where
  table := [(.startToEnd, ascii "start_to_end"), (.endToStart, ascii "end_to_start"),
    (.centerOut, ascii "center_out")]

section

variable {Enum : Type} [Names Enum]

/-- The persisted name of a value. -/
def nameOf [DecidableEq Enum] (value : Enum) : Option Bytes :=
  ((Names.table : List (Enum × Bytes)).find? fun entry => entry.1 = value).map Prod.snd

/-- The value that is persisted under a name. -/
def parseName (name : Bytes) : Option Enum :=
  ((Names.table : List (Enum × Bytes)).find? fun entry => entry.2 = name).map Prod.fst

end

end AccessoryController.Persisted
