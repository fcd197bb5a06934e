import AccessoryController.ActionEngine.Condition

/-!
# Runtime rules

State and event rules evaluate notices, range and sampled state rules evaluate polled reads. Each
evaluation returns the rule with its new memory and at most one command.

## Main definitions

* `StateRule`, `EventRule`: the rules that run on notices, collected in a `Rule`
* `RangeRule`, `SampledStateRule`: the rules that run on reads, collected in a `PolledRule`
* `LinearMapping.map`: the clamped interpolation of a range rule

## Main results

* `LinearMapping.isNaN_map`: a validated mapping sends finite values to numbers
-/

namespace AccessoryController.ActionEngine

open VehicleSignals Binary32

/-- The command of an on/off level. -/
def levelCommand (action : ActionId) (output : Bool) : ActionCommand where
  action := action
  kind := if output then .activate else .deactivate

/-! ### Rules on notices -/

structure StateRule where
  condition : ResolvedCondition := {}
  action : ActionId := {}
  lastOutput : Option Bool := none
  deriving DecidableEq, Repr

namespace StateRule

def signal (rule : StateRule) : SignalId := rule.condition.signal

def reset (rule : StateRule) : StateRule := { rule with lastOutput := none }

def onNotice (rule : StateRule) (notice : SignalNotification) :
    StateRule × Option ActionCommand :=
  let output := (rule.condition.evaluate notice.current).getD false
  if !notice.initial ∧ rule.lastOutput = some output then (rule, none)
  else ({ rule with lastOutput := some output }, some (levelCommand rule.action output))

end StateRule

structure EventRule where
  condition : ResolvedCondition := {}
  action : ActionId := {}
  edge : EventEdge := .becomesTrue
  baseline : Option Bool := none
  deriving DecidableEq, Repr

/-- A provider start or a data gap: no transition spans this notice. -/
def restartsBaseline (notice : SignalNotification) : Bool :=
  notice.initial || notice.becameUnavailable || notice.recovered

namespace EventRule

def signal (rule : EventRule) : SignalId := rule.condition.signal

def reset (rule : EventRule) : EventRule := { rule with baseline := none }

def fires (rule : EventRule) : Option Bool → Option Bool → Bool
  | some previous, some current =>
    previous != current && current == (rule.edge == .becomesTrue)
  | _, _ => false

def onNotice (rule : EventRule) (notice : SignalNotification) :
    EventRule × Option ActionCommand :=
  let previous := if restartsBaseline notice then none else rule.baseline
  let baseline := rule.condition.evaluate notice.current
  ({ rule with baseline },
    if rule.fires previous baseline then some { action := rule.action, kind := .trigger } else none)

end EventRule

/-- A rule that runs on notices. -/
inductive Rule
  | state (rule : StateRule)
  | event (rule : EventRule)
  deriving DecidableEq, Repr

namespace Rule

def signal : Rule → SignalId
  | .state rule => rule.signal
  | .event rule => rule.signal

def reset : Rule → Rule
  | .state rule => .state rule.reset
  | .event rule => .event rule.reset

/-- A rule evaluates the notices of its signal. -/
def onNotice (rule : Rule) (notice : SignalNotification) : Rule × Option ActionCommand :=
  if rule.signal ≠ notice.id then (rule, none)
  else
    match rule with
    | .state rule => (rule.onNotice notice).map .state id
    | .event rule => (rule.onNotice notice).map .event id

/-- The action whose level the rule drives. -/
def levelAction : Rule → Option ActionId
  | .state rule => some rule.action
  | .event _ => none

end Rule

/-! ### Rules on polled reads -/

/-- The result of reading the signal of a polled rule. -/
abbrev Read := SignalResult SignalReading

/-- A linear map from an ascending interval onto another, constant outside. -/
structure LinearMapping where
  input : NumericRange := {}
  output : NumericRange := {}
  deriving DecidableEq, Repr

def LinearMapping.map (mapping : LinearMapping) (value : Binary32) : Binary32 :=
  if value.le mapping.input.fromBound then mapping.output.fromBound
  else if mapping.input.toBound.le value then mapping.output.toBound
  else
    let fraction := (value.sub mapping.input.fromBound).div
      (mapping.input.toBound.sub mapping.input.fromBound)
    mapping.output.fromBound.add
      (fraction.mul (mapping.output.toBound.sub mapping.output.fromBound))

structure RangeRule where
  mapping : LinearMapping := {}
  signal : SignalId := {}
  action : ActionId := {}
  freshness : FreshnessRequirement := .fresh
  last : Option ActionCommand := none
  deriving DecidableEq, Repr

namespace RangeRule

def reset (rule : RangeRule) : RangeRule := { rule with last := none }

/-- The number that a read is actionable with. -/
def actionableNumber (rule : RangeRule) (read : Read) : Option Binary32 :=
  (read.success?.bind fun reading => actionableValue reading .number rule.freshness).bind
    SignalValue.asNumber

def commandFor (rule : RangeRule) (read : Read) : ActionCommand :=
  match rule.actionableNumber read with
  | none => { action := rule.action, kind := .deactivate }
  | some value => { action := rule.action, kind := .setLevel, level := rule.mapping.map value }

def onSample (rule : RangeRule) (read : Read) : RangeRule × Option ActionCommand :=
  let command := rule.commandFor read
  if rule.last.any fun last => last.eq command then (rule, none)
  else ({ rule with last := some command }, some command)

end RangeRule

structure SampledStateRule where
  activationCondition : ResolvedCondition := {}
  releaseCondition : Option ResolvedCondition := none
  action : ActionId := {}
  lastOutput : Option Bool := none
  deriving DecidableEq, Repr

namespace SampledStateRule

def signal (rule : SampledStateRule) : SignalId := rule.activationCondition.signal

def reset (rule : SampledStateRule) : SampledStateRule := { rule with lastOutput := none }

/-- The condition that decides the next output. -/
def conditionAfter (rule : SampledStateRule) (wasActive : Bool) : ResolvedCondition :=
  if wasActive then rule.releaseCondition.getD rule.activationCondition
  else rule.activationCondition

def onSample (rule : SampledStateRule) (read : Read) :
    SampledStateRule × Option ActionCommand :=
  let condition := rule.conditionAfter (rule.lastOutput.getD false)
  let output := (read.success?.bind condition.evaluate).getD false
  if rule.lastOutput = some output then (rule, none)
  else ({ rule with lastOutput := some output }, some (levelCommand rule.action output))

end SampledStateRule

/-- A rule that runs on polled reads. -/
inductive PolledRule
  | range (rule : RangeRule)
  | sampledState (rule : SampledStateRule)
  deriving DecidableEq, Repr

namespace PolledRule

def signal : PolledRule → SignalId
  | .range rule => rule.signal
  | .sampledState rule => rule.signal

def action : PolledRule → ActionId
  | .range rule => rule.action
  | .sampledState rule => rule.action

def reset : PolledRule → PolledRule
  | .range rule => .range rule.reset
  | .sampledState rule => .sampledState rule.reset

def onSample (rule : PolledRule) (read : Read) : PolledRule × Option ActionCommand :=
  match rule with
  | .range rule => (rule.onSample read).map .range id
  | .sampledState rule => (rule.onSample read).map .sampledState id

end PolledRule

/-! ### The validation of ranges -/

def NumericRange.finite (range : NumericRange) : Bool :=
  range.fromBound.isFinite && range.toBound.isFinite &&
    (range.toBound.sub range.fromBound).isFinite

/-- The bounds and spans are finite, and the input is ascending. -/
def LinearMapping.valid (mapping : LinearMapping) : Bool :=
  mapping.input.finite && mapping.output.finite &&
    mapping.input.fromBound.lt mapping.input.toBound

def resolveRangeRule (catalog : SignalCatalogView) (config : RangeRuleConfig) :
    Except ConfigStatus RangeRule :=
  match catalog.findKey config.signalKey with
  | none => .error .unknownSignal
  | some signal =>
    if !signal.capabilities.has .read then .error .unsupportedCapability
    else if signal.type ≠ .number then .error .typeMismatch
    else if !(LinearMapping.mk config.input config.output).valid then .error .invalidRange
    else .ok {
      mapping := ⟨config.input, config.output⟩
      signal := signal.id
      action := config.action
      freshness := config.freshness }

/-- **A validated mapping** sends finite values to numbers, never to a NaN. -/
theorem LinearMapping.isNaN_map {mapping : LinearMapping} (valid : mapping.valid = true)
    {value : Binary32} (finite : value.isFinite = true) : (mapping.map value).isNaN = false := by
  simp only [LinearMapping.valid, NumericRange.finite, Bool.and_eq_true] at valid
  obtain ⟨⟨⟨⟨hfrom, hto⟩, hspan⟩, ⟨hfrom', hto'⟩, hspan'⟩, hascending⟩ := valid
  have hnan := isNaN_of_isFinite finite
  unfold LinearMapping.map
  split
  · exact isNaN_of_isFinite hfrom'
  rename_i habove
  split
  · exact isNaN_of_isFinite hto'
  rename_i hbelow
  have hlow : mapping.input.fromBound.units < value.units := by
    simpa [le, hnan, isNaN_of_isFinite hfrom] using habove
  have hhigh : value.units < mapping.input.toBound.units := by
    simpa [le, hnan, isNaN_of_isFinite hto] using hbelow
  -- the distance from the lower end is at most the length of the interval
  obtain ⟨hdistance, hle⟩ :=
    sub_between hfrom finite hto hlow (Int.le_of_lt hhigh) hspan
  have hpos := magnitude_sub_pos hfrom hto (Int.lt_trans hlow hhigh)
  have hfraction := isFinite_div hdistance hspan hpos hle
  exact isNaN_add hfrom' (isNaN_mul hfraction hspan')

end AccessoryController.ActionEngine
