import AccessoryController.ActionEngine.Engine
import AccessoryController.ControllerConfig.Persisted.Model

/-!
# Validation of a persisted configuration

The checks that need no catalogue and no runtime: structure, cross references and the value
constraints of the engine and the LED adapter. An entry of a section is checked against the
entries before it.

## Main definitions

* `ruleError`, `outputError`: the first error of an entry
* `validate`: the first error of a document

## Main results

* `firstError_ok`: a section is accepted when each of its entries is, after the ones before it
* `validate_ok`: what an accepted document satisfies
-/

open AccessoryController.ControllerConfig (Bytes)

namespace AccessoryController.Persisted

open ActionEngine (Comparison FreshnessRequirement NumericRange)

inductive ConfigSection
  | document | actions | rules | outputs | sinks
  deriving DecidableEq, Repr

inductive ValidationError
  | none | invalidPixelCount | unsupportedVersion | emptyActionName | duplicateActionName
  | undeclaredAction | duplicateAction | emptySignalKey | unknownComparison | unknownFreshness
  | unknownEventEdge | emptyChoice | invalidOperand | unsupportedComparison | invalidHysteresis
  | invalidRange | unknownLedEffect | unknownFillDirection | emptyZone | zoneOutOfRange
  | invalidColor | invalidPriority | duplicateBinding | invalidDuration | incompatibleActionKind
  deriving DecidableEq, Repr

namespace ValidationError

/-- The error of a check that is made after another one has passed. -/
def otherwise (error next : ValidationError) : ValidationError :=
  if error ≠ none then error else next

@[simp] theorem otherwise_eq_none {error next : ValidationError} :
    error.otherwise next = none ↔ error = none ∧ next = none := by
  unfold otherwise
  split
  · rename_i herror
    exact ⟨fun h => absurd h herror, fun h => absurd h.1 herror⟩
  · rename_i herror
    exact ⟨fun h => ⟨not_not.mp herror, h⟩, fun h => h.2⟩

end ValidationError

/-- The first error found and its place. -/
structure ValidationResult where
  error : ValidationError := .none
  configSection : ConfigSection := .document
  index : ℕ := 0
  deriving DecidableEq, Repr

def ValidationResult.ok (result : ValidationResult) : Bool := result.error == .none

def inRange (value minimum maximum : ℤ) : Bool :=
  decide (minimum ≤ value) && decide (value ≤ maximum)

theorem inRange_eq_true {value minimum maximum : ℤ} :
    inRange value minimum maximum = true ↔ minimum ≤ value ∧ value ≤ maximum := by
  simp [inRange]

def isDeclared (actions : List Action) (name : Bytes) : Bool :=
  actions.any fun action => action.name == name

/-! ### Actions -/

def actionError (earlier : List Action) (action : Action) : ValidationError :=
  if action.name = [] then .emptyActionName
  else if isDeclared earlier action.name then .duplicateActionName
  else .none

/-! ### Rules -/

def isOrdered (comparison : Comparison) : Bool :=
  comparison == .less || comparison == .lessOrEqual || comparison == .greater ||
    comparison == .greaterOrEqual

def operandError : Operand → ValidationError
  | .choice key => if key = [] then .emptyChoice else .none
  | .number value => if value.isFinite then .none else .invalidOperand
  | .boolean _ => .none

def Operand.isNumber : Operand → Bool
  | .number _ => true
  | _ => false

def conditionError (condition : Condition) : ValidationError :=
  if condition.signalKey = [] then .emptySignalKey
  else if (nameOf condition.comparison).isNone then .unknownComparison
  else
    (operandError condition.operand).otherwise
      (if isOrdered condition.comparison && !condition.operand.isNumber then .unsupportedComparison
      else .none)

/-- The release threshold is finite and on the inactive side of an ordered numeric threshold. -/
def isValidRelease (condition : Condition) (release : Binary32) : Bool :=
  match condition.operand with
  | .number activation =>
    release.isFinite &&
      match condition.comparison with
      | .greater | .greaterOrEqual => release.lt activation
      | .less | .lessOrEqual => activation.lt release
      | .equal | .notEqual | .unknown _ => false
  | _ => false

def freshnessError (freshness : FreshnessRequirement) : ValidationError :=
  if (nameOf freshness).isSome then .none else .unknownFreshness

def StateRule.bodyError (rule : StateRule) : ValidationError :=
  (conditionError rule.condition).otherwise (freshnessError rule.freshness)

def SampledStateRule.bodyError (rule : SampledStateRule) : ValidationError :=
  (conditionError rule.condition).otherwise <| (freshnessError rule.freshness).otherwise <|
    if rule.releaseThreshold.any fun release => !isValidRelease rule.condition release then
      .invalidHysteresis
    else .none

def EventRule.bodyError (rule : EventRule) : ValidationError :=
  (conditionError rule.condition).otherwise <|
    if (nameOf rule.edge).isNone then .unknownEventEdge else freshnessError rule.freshness

def RangeRule.bodyError (rule : RangeRule) : ValidationError :=
  if rule.signalKey = [] then .emptySignalKey
  else
    (freshnessError rule.freshness).otherwise <|
      if !rule.input.finite || !rule.output.finite || !rule.input.fromBound.lt rule.input.toBound
      then .invalidRange
      else .none

namespace Rule

def bodyError : Rule → ValidationError
  | .state rule => rule.bodyError
  | .sampledState rule => rule.bodyError
  | .event rule => rule.bodyError
  | .range rule => rule.bodyError

/-- The rule owns the level of its action; an event rule only pulses it. -/
def isLevel (rule : Rule) : Bool := rule.type != .event

end Rule

def hasEarlierLevelRule (earlier : List Rule) (action : Bytes) : Bool :=
  earlier.any fun rule => rule.isLevel && rule.action == action

def ruleError (config : ControllerConfig) (earlier : List Rule) (rule : Rule) : ValidationError :=
  if !isDeclared config.actions rule.action then .undeclaredAction
  else
    rule.bodyError.otherwise <|
      if rule.isLevel && hasEarlierLevelRule earlier rule.action then .duplicateAction else .none

/-! ### Outputs -/

/-- The zone is not empty and fits a strip of that many pixels. -/
def zoneError (zone : LedZone) (pixels : ℤ) : ValidationError :=
  if (nameOf zone.direction).isNone then .unknownFillDirection
  else if zone.length = 0 then .emptyZone
  else if zone.start < 0 ∨ zone.length < 0 ∨ pixels ≤ zone.start ∨
      pixels - zone.start < zone.length then .zoneOutOfRange
  else .none

def LedEffectBinding.bodyError (binding : LedEffectBinding) : ValidationError :=
  if (nameOf binding.effect).isNone then .unknownLedEffect
  else if !inRange binding.priority kPriorityMin kPriorityMax then .invalidPriority
  else .none

/-- The body of a binding with a zone; the three kinds share their limits. -/
def zoneBindingError (zone : LedZone) (color : Rgb) (priority : ℤ) : ValidationError :=
  (zoneError zone kZonePixels).otherwise <|
    if !inRange color.red kColorMin kColorMax || !inRange color.green kColorMin kColorMax ||
        !inRange color.blue kColorMin kColorMax then .invalidColor
    else if !inRange priority kPriorityMin kPriorityMax then .invalidPriority
    else .none

def LedFillBinding.bodyError (binding : LedFillBinding) : ValidationError :=
  zoneBindingError binding.zone binding.color binding.priority

def LedTransientBinding.bodyError (binding : LedTransientBinding) : ValidationError :=
  (zoneBindingError binding.zone binding.color binding.priority).otherwise <|
    if !inRange binding.durationMs kDurationMsMin kMaxTransientDurationMs then .invalidDuration
    else .none

def LedSolidBinding.bodyError (binding : LedSolidBinding) : ValidationError :=
  zoneBindingError binding.zone binding.color binding.priority

/-- Neither a range nor an event rule drives the action. -/
def drivesStateOnly (rules : List Rule) (action : Bytes) : Bool :=
  rules.all fun rule =>
    !(rule.action == action && (rule.type == .range || rule.type == .event))

def sameZone (left right : LedZone) : Bool :=
  left.start == right.start && left.length == right.length

def sameFillZone (left right : LedZone) : Bool :=
  sameZone left right && left.direction == right.direction

namespace OutputBinding

def bodyError : OutputBinding → ValidationError
  | .ledEffect binding => binding.bodyError
  | .ledFill binding => binding.bodyError
  | .ledTransient binding => binding.bodyError
  | .ledSolid binding => binding.bodyError

/-- A solid zone has no meaning for a range level or an event pulse. -/
def actionKindError (rules : List Rule) : OutputBinding → ValidationError
  | .ledSolid binding =>
    if drivesStateOnly rules binding.action then .none else .incompatibleActionKind
  | _ => .none

/-- The zone of a binding that has one. -/
def zone? : OutputBinding → Option LedZone
  | .ledEffect _ => none
  | .ledFill binding => some binding.zone
  | .ledTransient binding => some binding.zone
  | .ledSolid binding => some binding.zone

/-- Two outputs that drive one target. Solid zones are bound as fills, so the identity of a fill
applies across both kinds. -/
def sameTarget : OutputBinding → OutputBinding → Bool
  | .ledEffect left, .ledEffect right =>
    left.action == right.action && left.effect == right.effect
  | .ledTransient left, .ledTransient right =>
    left.action == right.action && sameZone left.zone right.zone
  | .ledSolid left, .ledSolid right =>
    left.action == right.action && sameZone left.zone right.zone
  | .ledFill left, .ledFill right =>
    left.action == right.action && sameFillZone left.zone right.zone
  | .ledFill left, .ledSolid right =>
    left.action == right.action && sameFillZone left.zone right.zone
  | .ledSolid left, .ledFill right =>
    right.action == left.action && sameFillZone right.zone left.zone
  | _, _ => false

end OutputBinding

def hasEarlierBinding (earlier : List OutputBinding) (binding : OutputBinding) : Bool :=
  earlier.any fun other => other.sameTarget binding

/-- The zone of an output against the configured strip. -/
def stripError (config : ControllerConfig) (binding : OutputBinding) : ValidationError :=
  match binding.zone? with
  | none => .none
  | some zone => zoneError zone config.pixelCount

def outputError (config : ControllerConfig) (earlier : List OutputBinding)
    (binding : OutputBinding) : ValidationError :=
  if !isDeclared config.actions binding.action then .undeclaredAction
  else
    binding.bodyError.otherwise <| (binding.actionKindError config.rules).otherwise <|
      (stripError config binding).otherwise <|
        if hasEarlierBinding earlier binding then .duplicateBinding else .none

/-! ### Documents -/

/-- The first error in a section; `earlier` holds the entries that have passed. -/
def firstError {Entry : Type} (place : ConfigSection)
    (entryError : List Entry → Entry → ValidationError) :
    List Entry → List Entry → ValidationResult
  | _, [] => {}
  | earlier, entry :: later =>
    if entryError earlier entry ≠ .none then ⟨entryError earlier entry, place, earlier.length⟩
    else firstError place entryError (earlier ++ [entry]) later

def validate (config : ControllerConfig) : ValidationResult :=
  if !inRange config.pixelCount kPixelCountMin kPixelCountMax then ⟨.invalidPixelCount, .sinks, 0⟩
  else if config.version ≠ kSchemaVersion then ⟨.unsupportedVersion, .document, 0⟩
  else if !(firstError .actions actionError [] config.actions).ok then
    firstError .actions actionError [] config.actions
  else if !(firstError .rules (ruleError config) [] config.rules).ok then
    firstError .rules (ruleError config) [] config.rules
  else firstError .outputs (outputError config) [] config.outputs

/-! ### What an accepted document satisfies -/

/-- Every entry of a section passes, checked against the ones before it. -/
def Passes {Entry : Type} (entryError : List Entry → Entry → ValidationError)
    (entries : List Entry) : Prop :=
  ∀ before entry after, entries = before ++ entry :: after → entryError before entry = .none

/-- A section is accepted exactly when each of its entries passes. -/
theorem firstError_ok {Entry : Type} {place : ConfigSection}
    {entryError : List Entry → Entry → ValidationError} (earlier entries : List Entry) :
    (firstError place entryError earlier entries).ok = true ↔
      ∀ before entry after, entries = before ++ entry :: after →
        entryError (earlier ++ before) entry = .none := by
  induction entries generalizing earlier with
  | nil =>
    refine ⟨fun _ before entry after h => ?_, fun _ => rfl⟩
    exact absurd h (by simp)
  | cons first later ih =>
    unfold firstError
    by_cases hfirst : entryError earlier first = .none
    · rw [if_neg (not_not_intro hfirst), ih]
      constructor
      · rintro h (_ | ⟨first', before⟩) entry after hsplit
        · obtain ⟨rfl, rfl⟩ := List.cons_eq_cons.mp hsplit
          rwa [List.append_nil]
        · obtain ⟨rfl, htail⟩ := List.cons_eq_cons.mp hsplit
          have := h before entry after htail
          rwa [List.append_assoc] at this
      · intro h before entry after hsplit
        have := h (first :: before) entry after (by rw [hsplit, List.cons_append])
        rwa [List.append_assoc]
    · rw [if_pos hfirst]
      constructor
      · intro h
        exact absurd h (by simpa [ValidationResult.ok] using hfirst)
      · intro h
        have := h [] first later rfl
        rw [List.append_nil] at this
        exact absurd this hfirst

/-- What validation has checked of an accepted document. -/
structure Accepted (config : ControllerConfig) : Prop where
  pixels : inRange config.pixelCount kPixelCountMin kPixelCountMax = true
  version : config.version = kSchemaVersion
  actions : Passes actionError config.actions
  rules : Passes (ruleError config) config.rules
  outputs : Passes (outputError config) config.outputs

/-- **An accepted document** passes the check of every entry. -/
theorem validate_ok {config : ControllerConfig} :
    (validate config).ok = true ↔ Accepted config := by
  have hsection : ∀ {Entry : Type} (place : ConfigSection)
      (entryError : List Entry → Entry → ValidationError) (entries : List Entry),
      (firstError place entryError [] entries).ok = true ↔ Passes entryError entries := by
    intro Entry place entryError entries
    rw [firstError_ok]
    rfl
  unfold validate
  by_cases hpixels : inRange config.pixelCount kPixelCountMin kPixelCountMax = true
  swap
  · rw [Bool.not_eq_true] at hpixels
    rw [hpixels, Bool.not_false, if_pos rfl]
    refine ⟨fun h => absurd h (by decide), fun h => absurd h.pixels ?_⟩
    rw [hpixels]
    exact Bool.false_ne_true
  rw [hpixels, Bool.not_true, if_neg Bool.false_ne_true]
  by_cases hversion : config.version = kSchemaVersion
  swap
  · rw [if_pos hversion]
    exact ⟨fun h => absurd h (by decide), fun h => absurd h.version hversion⟩
  rw [if_neg (not_not_intro hversion)]
  by_cases hactions : (firstError .actions actionError [] config.actions).ok = true
  swap
  · rw [Bool.not_eq_true] at hactions
    rw [hactions, Bool.not_false, if_pos rfl, hactions]
    refine ⟨fun h => absurd h Bool.false_ne_true, fun h => ?_⟩
    rw [← hactions]
    exact (hsection _ _ _).mpr h.actions
  rw [hactions, Bool.not_true, if_neg Bool.false_ne_true]
  by_cases hrules : (firstError .rules (ruleError config) [] config.rules).ok = true
  swap
  · rw [Bool.not_eq_true] at hrules
    rw [hrules, Bool.not_false, if_pos rfl, hrules]
    refine ⟨fun h => absurd h Bool.false_ne_true, fun h => ?_⟩
    rw [← hrules]
    exact (hsection _ _ _).mpr h.rules
  rw [hrules, Bool.not_true, if_neg Bool.false_ne_true, hsection]
  exact ⟨fun h => ⟨hpixels, hversion, (hsection _ _ _).mp hactions, (hsection _ _ _).mp hrules, h⟩,
    fun h => h.outputs⟩

end AccessoryController.Persisted
