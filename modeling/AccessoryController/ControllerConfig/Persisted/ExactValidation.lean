import AccessoryController.ControllerConfig.Persisted.Validation

/-!
# Validation is exact and ordered

What a document must satisfy is a list of constraints, each with an error of its own, on the
document, on its sink settings and on each entry of a section with the entries before it. The
checks are made in some order, one after another, and the first that fails gives its error; what
they say together is which constraints are violated, and where.

## Main definitions

* `Diagnoses error violated`: an error is that of a violated constraint, and there is one unless
  nothing is violated
* `RuleViolates`, `OutputViolates`: the constraints on an entry
* `Violates config error place`: a document violates a constraint at a place
* `Precedes`: the order in which places are looked at

## Main results

* `ruleError_diagnoses`, `outputError_diagnoses`: the checks of an entry
* `firstError_cases`: the first entry of a section that fails
* `validation_exact`: what validation reports of every document
-/

open AccessoryController.ControllerConfig (Bytes)

namespace AccessoryController.Persisted

open ActionEngine (FreshnessRequirement)

/-! ### Diagnoses -/

/-- A row of checks reports nothing exactly if nothing is violated, and otherwise a violation. -/
structure Diagnoses (error : ValidationError) (violated : ValidationError → Prop) : Prop where
  complete : error = .none → ∀ e, ¬violated e
  sound : error ≠ .none → violated error

namespace Diagnoses

variable {error next : ValidationError} {violated other : ValidationError → Prop}

theorem none : Diagnoses .none fun _ => False :=
  ⟨fun _ _ => id, fun h => absurd rfl h⟩

/-- One check, before others. -/
theorem check {c : Prop} [Decidable c] (real : error ≠ .none)
    (rest : Diagnoses next violated) :
    Diagnoses (if c then error else next) fun e => e = error ∧ c ∨ ¬c ∧ violated e := by
  by_cases h : c
  · rw [if_pos h]
    exact ⟨fun none => absurd none real, fun _ => .inl ⟨rfl, h⟩⟩
  · rw [if_neg h]
    exact ⟨fun none e found => found.elim (fun found => h found.2) fun found =>
      rest.complete none e found.2, fun some => .inr ⟨h, rest.sound some⟩⟩

/-- One check alone. -/
theorem single {c : Prop} [Decidable c] (real : error ≠ .none) :
    Diagnoses (if c then error else .none) fun e => e = error ∧ c := by
  by_cases h : c
  · rw [if_pos h]
    exact ⟨fun none => absurd none real, fun _ => ⟨rfl, h⟩⟩
  · rw [if_neg h]
    exact ⟨fun _ e found => h found.2, fun some => absurd rfl some⟩

theorem otherwise (first : Diagnoses error violated) (rest : Diagnoses next other) :
    Diagnoses (error.otherwise next) fun e => violated e ∨ other e := by
  unfold ValidationError.otherwise
  by_cases h : error = .none
  · rw [if_neg (not_not_intro h)]
    exact ⟨fun none e found => found.elim (first.complete h e) (rest.complete none e),
      fun some => .inr (rest.sound some)⟩
  · rw [if_pos h]
    exact ⟨fun none => absurd none h, fun some => .inl (first.sound some)⟩

/-- The constraints may be told apart less sharply than the checks do. -/
theorem mono (found : Diagnoses error violated) (sound : ∀ e, violated e → other e)
    (complete : ∀ e, other e → ∃ e', violated e') : Diagnoses error other :=
  ⟨fun none e h => (complete e h).elim fun e' => found.complete none e',
    fun some => sound _ (found.sound some)⟩

theorem congr (found : Diagnoses error violated) (same : ∀ e, violated e ↔ other e) :
    Diagnoses error other :=
  found.mono (fun e => (same e).mp) fun e h => ⟨e, (same e).mpr h⟩

end Diagnoses

/-! ### The constraints on actions and rules -/

def IsDeclared (config : ControllerConfig) (name : Bytes) : Prop :=
  ∃ action ∈ config.actions, action.name = name

/-- The constraints on an action, after the ones before it. -/
def ActionViolates (earlier : List Action) (action : Action) : ValidationError → Prop
  | .emptyActionName => action.name = []
  | .duplicateActionName => ∃ other ∈ earlier, other.name = action.name
  | _ => False

def ConditionViolates (condition : Condition) : ValidationError → Prop
  | .emptySignalKey => condition.signalKey = []
  | .unknownComparison => nameOf condition.comparison = none
  | .emptyChoice => condition.operand = .choice []
  | .invalidOperand => ∃ value, condition.operand = .number value ∧ value.isFinite = false
  | .unsupportedComparison =>
    isOrdered condition.comparison = true ∧ ∀ value, condition.operand ≠ .number value
  | _ => False

def FreshnessViolates (freshness : FreshnessRequirement) : ValidationError → Prop
  | .unknownFreshness => nameOf freshness = none
  | _ => False

/-- A release threshold is finite and on the inactive side of an ordered numeric condition. -/
def ReleasesInside (condition : Condition) (release : Binary32) : Prop :=
  ∃ activation, condition.operand = .number activation ∧ release.isFinite = true ∧
    ((condition.comparison = .greater ∨ condition.comparison = .greaterOrEqual) ∧
        release.lt activation = true ∨
      (condition.comparison = .less ∨ condition.comparison = .lessOrEqual) ∧
        activation.lt release = true)

/-- The constraints on a rule by itself. -/
def Rule.Violates : Rule → ValidationError → Prop
  | .state rule, e => ConditionViolates rule.condition e ∨ FreshnessViolates rule.freshness e
  | .sampledState rule, e =>
    ConditionViolates rule.condition e ∨ FreshnessViolates rule.freshness e ∨
      e = .invalidHysteresis ∧
        ∃ release, rule.releaseThreshold = some release ∧ ¬ReleasesInside rule.condition release
  | .event rule, e =>
    ConditionViolates rule.condition e ∨ FreshnessViolates rule.freshness e ∨
      e = .unknownEventEdge ∧ nameOf rule.edge = none
  | .range rule, e =>
    e = .emptySignalKey ∧ rule.signalKey = [] ∨ FreshnessViolates rule.freshness e ∨
      e = .invalidRange ∧ ¬(rule.input.finite = true ∧ rule.output.finite = true ∧
        rule.input.fromBound.lt rule.input.toBound = true)

/-- The constraints on a rule, after the ones before it. -/
def RuleViolates (config : ControllerConfig) (earlier : List Rule) (rule : Rule)
    (e : ValidationError) : Prop :=
  e = .undeclaredAction ∧ ¬IsDeclared config rule.action ∨ rule.Violates e ∨
    e = .duplicateAction ∧ rule.type ≠ .event ∧
      ∃ other ∈ earlier, other.type ≠ .event ∧ other.action = rule.action

/-! ### The constraints on outputs -/

def ZoneFits (zone : LedZone) (pixels : ℤ) : Prop :=
  0 ≤ zone.start ∧ 0 ≤ zone.length ∧ zone.start + zone.length ≤ pixels

/-- The constraints on a zone, on a strip of that many pixels. -/
def ZoneViolates (zone : LedZone) (pixels : ℤ) : ValidationError → Prop
  | .unknownFillDirection => nameOf zone.direction = none
  | .emptyZone => zone.length = 0
  | .zoneOutOfRange => ¬ZoneFits zone pixels
  | _ => False

def Rgb.InRange (color : Rgb) : Prop :=
  (0 ≤ color.red ∧ color.red ≤ 255) ∧ (0 ≤ color.green ∧ color.green ≤ 255) ∧
    0 ≤ color.blue ∧ color.blue ≤ 255

namespace OutputBinding

def color? : OutputBinding → Option Rgb
  | .ledEffect _ => none
  | .ledFill binding => some binding.color
  | .ledTransient binding => some binding.color
  | .ledSolid binding => some binding.color

def priority : OutputBinding → ℤ
  | .ledEffect binding => binding.priority
  | .ledFill binding => binding.priority
  | .ledTransient binding => binding.priority
  | .ledSolid binding => binding.priority

/-- The constraints on an output by itself. -/
def Violates (output : OutputBinding) : ValidationError → Prop
  | .unknownLedEffect => ∃ binding, output = .ledEffect binding ∧ nameOf binding.effect = none
  | .invalidColor => ∃ color, output.color? = some color ∧ ¬color.InRange
  | .invalidPriority => ¬(0 ≤ output.priority ∧ output.priority ≤ 255)
  | .invalidDuration => ∃ binding, output = .ledTransient binding ∧
      ¬(1 ≤ binding.durationMs ∧ binding.durationMs ≤ 5000)
  | _ => False

/-- Two outputs drive one target: the same effect of one action, the same zone of one action and
one kind, with the direction for fills, or the fill slot that a solid shares with a fill. -/
def SameTarget (left right : OutputBinding) : Prop :=
  left.action = right.action ∧
    ((∃ a b, left = .ledEffect a ∧ right = .ledEffect b ∧ a.effect = b.effect) ∨
      ∃ a b, left.zone? = some a ∧ right.zone? = some b ∧ a.start = b.start ∧
        a.length = b.length ∧
        (left.type = right.type ∧ left.type ≠ .ledFill ∨
          a.direction = b.direction ∧ (left.type = .ledFill ∨ left.type = .ledSolid) ∧
            (right.type = .ledFill ∨ right.type = .ledSolid)))

end OutputBinding

/-- The constraints on an output, after the ones before it. A zone fits the board and the
configured strip. -/
def OutputViolates (config : ControllerConfig) (earlier : List OutputBinding)
    (output : OutputBinding) (e : ValidationError) : Prop :=
  e = .undeclaredAction ∧ ¬IsDeclared config output.action ∨ output.Violates e ∨
    (∃ zone, output.zone? = some zone ∧
      (ZoneViolates zone kZonePixels e ∨ ZoneViolates zone config.pixelCount e)) ∨
    e = .incompatibleActionKind ∧ output.type = .ledSolid ∧ (∃ rule ∈ config.rules,
      rule.action = output.action ∧ (rule.type = .range ∨ rule.type = .event)) ∨
    e = .duplicateBinding ∧ ∃ other ∈ earlier, other.SameTarget output

/-! ### Documents -/

/-- A place in a document: a section with the index of an entry. -/
abbrev DocumentPlace := ConfigSection × ℕ

/-- A document violates a constraint at a place. -/
def Violates (config : ControllerConfig) (e : ValidationError) : DocumentPlace → Prop
  | (.document, 0) => e = .unsupportedVersion ∧ config.version ≠ 1
  | (.sinks, 0) => e = .invalidPixelCount ∧ ¬(100 ≤ config.pixelCount ∧ config.pixelCount ≤ 300)
  | (.actions, i) => ∃ action, config.actions[i]? = some action ∧
      ActionViolates (config.actions.take i) action e
  | (.rules, i) => ∃ rule, config.rules[i]? = some rule ∧
      RuleViolates config (config.rules.take i) rule e
  | (.outputs, i) => ∃ output, config.outputs[i]? = some output ∧
      OutputViolates config (config.outputs.take i) output e
  | _ => False

/-- The sections in the order in which they are looked at; the version and the sink settings come
before all entries. -/
def ConfigSection.rank : ConfigSection → ℕ
  | .document | .sinks => 0
  | .actions => 1
  | .rules => 2
  | .outputs => 3

def Precedes (earlier later : DocumentPlace) : Prop :=
  earlier.1.rank < later.1.rank ∨ earlier.1 = later.1 ∧ earlier.2 < later.2

/-! ### The checks of an action -/

theorem isDeclared_iff {actions : List Action} {name : Bytes} :
    isDeclared actions name = true ↔ ∃ action ∈ actions, action.name = name := by
  simp [isDeclared]

theorem actionError_diagnoses (earlier : List Action) (action : Action) :
    Diagnoses (actionError earlier action) (ActionViolates earlier action) := by
  refine (Diagnoses.check (by decide) (.single (by decide))).mono (fun e => ?_) fun e => ?_
  · rintro (⟨rfl, empty⟩ | ⟨-, rfl, twice⟩)
    · exact empty
    · exact isDeclared_iff.mp twice
  · intro found
    by_cases empty : action.name = []
    · exact ⟨_, .inl ⟨rfl, empty⟩⟩
    cases e with
    | emptyActionName => exact absurd found empty
    | duplicateActionName => exact ⟨_, .inr ⟨empty, rfl, isDeclared_iff.mpr found⟩⟩
    | _ => exact found.elim

/-! ### The checks of a rule -/

theorem operandError_diagnoses (operand : Operand) :
    Diagnoses (operandError operand) fun e =>
      e = .emptyChoice ∧ operand = .choice [] ∨
        e = .invalidOperand ∧ ∃ value, operand = .number value ∧ value.isFinite = false := by
  cases operand with
  | boolean value => exact Diagnoses.none.congr fun e => by simp
  | choice key =>
    exact (Diagnoses.single (by decide)).congr fun e => by simp
  | number value =>
    show Diagnoses (if value.isFinite then .none else .invalidOperand) _
    cases finite : value.isFinite with
    | true => exact Diagnoses.none.congr fun e => by simp [finite]
    | false => exact ⟨nofun, fun _ => .inr ⟨rfl, value, rfl, finite⟩⟩

theorem isNumber_eq_false {operand : Operand} :
    operand.isNumber = false ↔ ∀ value, operand ≠ .number value := by
  cases operand <;> simp [Operand.isNumber]

theorem conditionError_diagnoses (condition : Condition) :
    Diagnoses (conditionError condition) (ConditionViolates condition) := by
  refine (Diagnoses.check (by decide) (.check (by decide)
    ((operandError_diagnoses condition.operand).otherwise (.single (by decide))))).mono
      (fun e => ?_) fun e found => ?_
  · rintro (⟨rfl, h⟩ | ⟨-, ⟨rfl, h⟩ | ⟨-, ((⟨rfl, h⟩ | ⟨rfl, h⟩) | ⟨rfl, h⟩)⟩⟩)
    · exact h
    · exact Option.isNone_iff_eq_none.mp h
    · exact h
    · exact h
    · obtain ⟨ordered, other⟩ := Bool.and_eq_true_iff.mp h
      exact ⟨ordered, isNumber_eq_false.mp (by simpa using other)⟩
  by_cases key : condition.signalKey = []
  · exact ⟨_, .inl ⟨rfl, key⟩⟩
  by_cases unknown : (nameOf condition.comparison).isNone = true
  · exact ⟨_, .inr ⟨key, .inl ⟨rfl, unknown⟩⟩⟩
  cases e with
  | emptySignalKey => exact absurd found key
  | unknownComparison => exact absurd (Option.isNone_iff_eq_none.mpr found) unknown
  | emptyChoice => exact ⟨_, .inr ⟨key, .inr ⟨unknown, .inl (.inl ⟨rfl, found⟩)⟩⟩⟩
  | invalidOperand => exact ⟨_, .inr ⟨key, .inr ⟨unknown, .inl (.inr ⟨rfl, found⟩)⟩⟩⟩
  | unsupportedComparison =>
    refine ⟨_, .inr ⟨key, .inr ⟨unknown, .inr ⟨rfl, ?_⟩⟩⟩⟩
    rw [found.1, isNumber_eq_false.mpr found.2]
    rfl
  | _ => exact found.elim

theorem freshnessError_diagnoses (freshness : FreshnessRequirement) :
    Diagnoses (freshnessError freshness) (FreshnessViolates freshness) := by
  unfold freshnessError
  cases known : nameOf freshness with
  | none => exact ⟨fun h => absurd h (by decide), fun _ => known⟩
  | some name =>
    refine Diagnoses.none.congr fun e => ⟨False.elim, fun found => ?_⟩
    cases e <;> first | exact found.elim | exact absurd (known.symm.trans found) nofun

theorem isValidRelease_iff {condition : Condition} {release : Binary32} :
    isValidRelease condition release = true ↔ ReleasesInside condition release := by
  unfold isValidRelease ReleasesInside
  cases condition.operand with
  | number activation => cases condition.comparison <;> simp
  | _ => simp

theorem bodyError_diagnoses (rule : Rule) : Diagnoses rule.bodyError rule.Violates := by
  cases rule with
  | state rule =>
    exact (conditionError_diagnoses _).otherwise (freshnessError_diagnoses _)
  | sampledState rule =>
    refine (conditionError_diagnoses _).otherwise
      ((freshnessError_diagnoses _).otherwise ((Diagnoses.single (by decide)).congr fun e => ?_))
    rw [Option.any_eq_true]
    simp only [Bool.not_eq_true', ← Bool.not_eq_true, isValidRelease_iff]
  | event rule =>
    refine (conditionError_diagnoses _).otherwise ?_
    refine ((Diagnoses.check (by decide) (freshnessError_diagnoses rule.freshness)).mono
      (fun e => ?_) fun e => ?_)
    · rintro (⟨rfl, unknown⟩ | ⟨-, found⟩)
      · exact .inr ⟨rfl, Option.isNone_iff_eq_none.mp unknown⟩
      · exact .inl found
    · intro found
      by_cases unknown : (nameOf rule.edge).isNone = true
      · exact ⟨_, .inl ⟨rfl, unknown⟩⟩
      · rcases found with found | ⟨rfl, found⟩
        · exact ⟨_, .inr ⟨unknown, found⟩⟩
        · exact absurd (Option.isNone_iff_eq_none.mpr found) unknown
  | range rule =>
    refine (Diagnoses.check (by decide) ((freshnessError_diagnoses rule.freshness).otherwise
      (.single (by decide)))).mono (fun e => ?_) fun e found => ?_
    · rintro (⟨rfl, empty⟩ | ⟨-, found | ⟨rfl, outside⟩⟩)
      · exact .inl ⟨rfl, empty⟩
      · exact .inr (.inl found)
      · refine .inr (.inr ⟨rfl, fun inside => ?_⟩)
        simp [inside.1, inside.2.1, inside.2.2] at outside
    · by_cases empty : rule.signalKey = []
      · exact ⟨_, .inl ⟨rfl, empty⟩⟩
      rcases found with ⟨-, found⟩ | found | ⟨rfl, outside⟩
      · exact absurd found empty
      · exact ⟨_, .inr ⟨empty, .inl found⟩⟩
      · refine ⟨_, .inr ⟨empty, .inr ⟨rfl, ?_⟩⟩⟩
        by_contra inside
        exact outside (by simpa [and_assoc] using inside)

theorem isLevel_iff {rule : Rule} : rule.isLevel = true ↔ rule.type ≠ .event := by
  cases rule <;> simp [Rule.isLevel, Rule.type]

theorem hasEarlierLevelRule_iff {earlier : List Rule} {action : Bytes} :
    hasEarlierLevelRule earlier action = true ↔
      ∃ other ∈ earlier, other.type ≠ .event ∧ other.action = action := by
  simp [hasEarlierLevelRule, isLevel_iff]

variable (config : ControllerConfig)

/-- **The checks of a rule.** -/
theorem ruleError_diagnoses (earlier : List Rule) (rule : Rule) :
    Diagnoses (ruleError config earlier rule) (RuleViolates config earlier rule) := by
  refine (Diagnoses.check (by decide) ((bodyError_diagnoses rule).otherwise
    (.single (by decide)))).mono (fun e => ?_) fun e found => ?_
  · rintro (⟨rfl, undeclared⟩ | ⟨-, found | ⟨rfl, twice⟩⟩)
    · refine .inl ⟨rfl, fun declared => ?_⟩
      rw [isDeclared_iff.mpr declared] at undeclared
      cases undeclared
    · exact .inr (.inl found)
    · obtain ⟨level, twice⟩ := Bool.and_eq_true_iff.mp twice
      exact .inr (.inr ⟨rfl, isLevel_iff.mp level, hasEarlierLevelRule_iff.mp twice⟩)
  · by_cases undeclared : (!isDeclared config.actions rule.action) = true
    · exact ⟨_, .inl ⟨rfl, undeclared⟩⟩
    rcases found with ⟨-, found⟩ | found | ⟨rfl, level, twice⟩
    · exact absurd (isDeclared_iff.mp (by simpa using undeclared)) found
    · exact ⟨_, .inr ⟨undeclared, .inl found⟩⟩
    · refine ⟨_, .inr ⟨undeclared, .inr ⟨rfl, ?_⟩⟩⟩
      rw [isLevel_iff.mpr level, hasEarlierLevelRule_iff.mpr twice]
      rfl

/-! ### The checks of an output -/

theorem zoneError_diagnoses (zone : LedZone) (pixels : ℤ) :
    Diagnoses (zoneError zone pixels) (ZoneViolates zone pixels) := by
  have fits : zone.length ≠ 0 → ((zone.start < 0 ∨ zone.length < 0 ∨ pixels ≤ zone.start ∨
      pixels - zone.start < zone.length) ↔ ¬ZoneFits zone pixels) := by
    unfold ZoneFits
    omega
  refine (Diagnoses.check (by decide) (.check (by decide) (.single (by decide)))).mono
    (fun e => ?_) fun e found => ?_
  · rintro (⟨rfl, unknown⟩ | ⟨-, ⟨rfl, empty⟩ | ⟨length, rfl, outside⟩⟩)
    · exact Option.isNone_iff_eq_none.mp unknown
    · exact empty
    · exact (fits length).mp outside
  · by_cases unknown : (nameOf zone.direction).isNone = true
    · exact ⟨_, .inl ⟨rfl, unknown⟩⟩
    by_cases empty : zone.length = 0
    · exact ⟨_, .inr ⟨unknown, .inl ⟨rfl, empty⟩⟩⟩
    cases e with
    | unknownFillDirection => exact absurd (Option.isNone_iff_eq_none.mpr found) unknown
    | emptyZone => exact absurd found empty
    | zoneOutOfRange =>
      exact ⟨_, .inr ⟨unknown, .inr ⟨empty, rfl, (fits empty).mpr found⟩⟩⟩
    | _ => exact found.elim

theorem not_inRange {value minimum maximum : ℤ} :
    (!inRange value minimum maximum) = true ↔ ¬(minimum ≤ value ∧ value ≤ maximum) := by
  rw [Bool.not_eq_true', ← Bool.not_eq_true, inRange_eq_true]

theorem color_inRange (color : Rgb) :
    (!inRange color.red kColorMin kColorMax || !inRange color.green kColorMin kColorMax ||
      !inRange color.blue kColorMin kColorMax) = true ↔ ¬color.InRange := by
  unfold Rgb.InRange
  simp only [Bool.or_eq_true, not_inRange, kColorMin, kColorMax]
  omega

theorem zoneBindingError_diagnoses (zone : LedZone) (color : Rgb) (priority : ℤ) :
    Diagnoses (zoneBindingError zone color priority) fun e =>
      ZoneViolates zone kZonePixels e ∨ e = .invalidColor ∧ ¬color.InRange ∨
        e = .invalidPriority ∧ ¬(0 ≤ priority ∧ priority ≤ 255) := by
  refine ((zoneError_diagnoses zone kZonePixels).otherwise (.check (by decide)
    (.single (by decide)))).mono (fun e => ?_) fun e found => ?_
  · rintro (found | ⟨rfl, outside⟩ | ⟨-, rfl, outside⟩)
    · exact .inl found
    · exact .inr (.inl ⟨rfl, (color_inRange color).mp outside⟩)
    · exact .inr (.inr ⟨rfl, not_inRange.mp outside⟩)
  · by_cases outside : color.InRange
    swap
    · exact ⟨_, .inr (.inl ⟨rfl, (color_inRange color).mpr outside⟩)⟩
    rcases found with found | ⟨-, found⟩ | ⟨rfl, found⟩
    · exact ⟨_, .inl found⟩
    · exact absurd outside found
    · exact ⟨_, .inr (.inr ⟨fun h => (color_inRange color).mp h outside, rfl,
        not_inRange.mpr found⟩)⟩

variable (output : OutputBinding)

namespace OutputBinding

/-- The constraints on an output by itself, with those on its zone. -/
def ViolatesBoard (output : OutputBinding) (e : ValidationError) : Prop :=
  output.Violates e ∨ ∃ zone, output.zone? = some zone ∧ ZoneViolates zone kZonePixels e

/-- The checks of a zone with its colour and its priority. -/
theorem violatesBoard_zone {zone : LedZone} {color : Rgb} {priority : ℤ}
    (hzone : output.zone? = some zone) (hcolor : output.color? = some color)
    (hpriority : output.priority = priority) (effect : ∀ binding, output ≠ .ledEffect binding)
    {e : ValidationError} (duration : e ≠ .invalidDuration) :
    (ZoneViolates zone kZonePixels e ∨ e = .invalidColor ∧ ¬color.InRange ∨
      e = .invalidPriority ∧ ¬(0 ≤ priority ∧ priority ≤ 255)) ↔ output.ViolatesBoard e := by
  unfold ViolatesBoard Violates
  rw [hzone, hcolor, hpriority]
  cases e <;> simp_all [ZoneViolates]

theorem bodyError_diagnoses : Diagnoses output.bodyError output.ViolatesBoard := by
  cases output with
  | ledEffect binding =>
    refine (Diagnoses.check (by decide) (.single (by decide))).mono (fun e => ?_) fun e found => ?_
    · rintro (⟨rfl, unknown⟩ | ⟨-, rfl, outside⟩)
      · exact .inl ⟨binding, rfl, Option.isNone_iff_eq_none.mp unknown⟩
      · exact .inl (not_inRange.mp outside)
    · by_cases unknown : (nameOf binding.effect).isNone = true
      · exact ⟨_, .inl ⟨rfl, unknown⟩⟩
      rcases found with found | ⟨_, nothing, -⟩
      swap
      · cases nothing
      refine ⟨_, .inr ⟨unknown, rfl, not_inRange.mpr ?_⟩⟩
      cases e with
      | unknownLedEffect =>
        obtain ⟨_, same, none⟩ := found
        cases same
        exact absurd (Option.isNone_iff_eq_none.mpr none) unknown
      | invalidPriority => exact found
      | invalidColor =>
        obtain ⟨_, nothing, -⟩ := found
        cases nothing
      | invalidDuration =>
        obtain ⟨_, nothing, -⟩ := found
        cases nothing
      | _ => exact found.elim
  | ledFill binding =>
    refine (zoneBindingError_diagnoses binding.zone binding.color binding.priority).congr
      fun e => ?_
    by_cases duration : e = .invalidDuration
    · subst duration
      simp [ViolatesBoard, Violates, ZoneViolates]
    · exact violatesBoard_zone (.ledFill binding) rfl rfl rfl (fun _ => nofun) duration
  | ledSolid binding =>
    refine (zoneBindingError_diagnoses binding.zone binding.color binding.priority).congr
      fun e => ?_
    by_cases duration : e = .invalidDuration
    · subst duration
      simp [ViolatesBoard, Violates, ZoneViolates]
    · exact violatesBoard_zone (.ledSolid binding) rfl rfl rfl (fun _ => nofun) duration
  | ledTransient binding =>
    refine ((zoneBindingError_diagnoses binding.zone binding.color binding.priority).otherwise
      (.single (by decide))).congr fun e => ?_
    rw [not_inRange]
    by_cases duration : e = .invalidDuration
    · subst duration
      simp [ViolatesBoard, Violates, ZoneViolates, kDurationMsMin, kMaxTransientDurationMs]
    · rw [← violatesBoard_zone (.ledTransient binding) rfl rfl rfl (fun _ => nofun) duration]
      simp [duration]
      rfl

theorem sameTarget_iff {left right : OutputBinding} :
    left.sameTarget right = true ↔ left.SameTarget right := by
  unfold SameTarget
  cases left <;> cases right <;>
    simp [sameTarget, OutputBinding.action, sameZone, sameFillZone, zone?, OutputBinding.type] <;>
    grind

end OutputBinding

theorem drivesStateOnly_iff {rules : List Rule} {action : Bytes} :
    drivesStateOnly rules action = false ↔
      ∃ rule ∈ rules, rule.action = action ∧ (rule.type = .range ∨ rule.type = .event) := by
  simp [drivesStateOnly, or_iff_not_imp_left]

theorem actionKindError_diagnoses (rules : List Rule) (output : OutputBinding) :
    Diagnoses (output.actionKindError rules) fun e =>
      e = .incompatibleActionKind ∧ output.type = .ledSolid ∧ ∃ rule ∈ rules,
        rule.action = output.action ∧ (rule.type = .range ∨ rule.type = .event) := by
  cases output with
  | ledSolid binding =>
    show Diagnoses (if drivesStateOnly rules binding.action then .none
      else .incompatibleActionKind) _
    cases only : drivesStateOnly rules binding.action with
    | true =>
      refine Diagnoses.none.congr fun e => ⟨False.elim, fun found => ?_⟩
      exact absurd (only.symm.trans (drivesStateOnly_iff.mpr found.2.2)) nofun
    | false => exact ⟨nofun, fun _ => ⟨rfl, rfl, drivesStateOnly_iff.mp only⟩⟩
  | _ => exact Diagnoses.none.congr fun e => by simp [OutputBinding.type]

theorem stripError_diagnoses :
    Diagnoses (stripError config output) fun e =>
      ∃ zone, output.zone? = some zone ∧ ZoneViolates zone config.pixelCount e := by
  unfold stripError
  cases output.zone? with
  | none => exact Diagnoses.none.congr fun e => by simp
  | some zone => exact (zoneError_diagnoses zone config.pixelCount).congr fun e => by simp

/-- **The checks of an output.** -/
theorem outputError_diagnoses (earlier : List OutputBinding) (output : OutputBinding) :
    Diagnoses (outputError config earlier output) (OutputViolates config earlier output) := by
  have twice : hasEarlierBinding earlier output = true ↔
      ∃ other ∈ earlier, other.SameTarget output := by
    simp [hasEarlierBinding, OutputBinding.sameTarget_iff]
  refine (Diagnoses.check (by decide) (output.bodyError_diagnoses.otherwise
    ((actionKindError_diagnoses config.rules output).otherwise
      ((stripError_diagnoses config output).otherwise (.single (by decide)))))).mono
        (fun e => ?_) fun e found => ?_
  · rintro (⟨rfl, undeclared⟩ | ⟨-, (found | ⟨zone, there, found⟩) | found | ⟨zone, there, found⟩ |
      ⟨rfl, found⟩⟩)
    · refine .inl ⟨rfl, fun declared => ?_⟩
      rw [isDeclared_iff.mpr declared] at undeclared
      cases undeclared
    · exact .inr (.inl found)
    · exact .inr (.inr (.inl ⟨zone, there, .inl found⟩))
    · exact .inr (.inr (.inr (.inl found)))
    · exact .inr (.inr (.inl ⟨zone, there, .inr found⟩))
    · exact .inr (.inr (.inr (.inr ⟨rfl, twice.mp found⟩)))
  · by_cases undeclared : (!isDeclared config.actions output.action) = true
    · exact ⟨_, .inl ⟨rfl, undeclared⟩⟩
    rcases found with ⟨-, found⟩ | found | ⟨zone, there, found | found⟩ | found | ⟨rfl, found⟩
    · exact absurd (isDeclared_iff.mp (by simpa using undeclared)) found
    · exact ⟨_, .inr ⟨undeclared, .inl (.inl found)⟩⟩
    · exact ⟨_, .inr ⟨undeclared, .inl (.inr ⟨zone, there, found⟩)⟩⟩
    · exact ⟨_, .inr ⟨undeclared, .inr (.inr (.inl ⟨zone, there, found⟩))⟩⟩
    · exact ⟨_, .inr ⟨undeclared, .inr (.inl found)⟩⟩
    · exact ⟨_, .inr ⟨undeclared, .inr (.inr (.inr ⟨rfl, twice.mpr found⟩))⟩⟩

/-! ### Sections -/

/-- A section is accepted, or the first entry that fails gives its error and its index. -/
theorem firstError_cases {Entry : Type} (place : ConfigSection)
    (entryError : List Entry → Entry → ValidationError) (earlier entries : List Entry) :
    firstError place entryError earlier entries = {} ∧
        (∀ before entry after, entries = before ++ entry :: after →
          entryError (earlier ++ before) entry = .none) ∨
      ∃ before entry after, entries = before ++ entry :: after ∧
        entryError (earlier ++ before) entry ≠ .none ∧
        firstError place entryError earlier entries =
          ⟨entryError (earlier ++ before) entry, place, earlier.length + before.length⟩ ∧
        ∀ front x back, before = front ++ x :: back → entryError (earlier ++ front) x = .none := by
  induction entries generalizing earlier with
  | nil => exact .inl ⟨rfl, fun before entry after h => absurd h (by simp)⟩
  | cons first later ih =>
    unfold firstError
    by_cases hfirst : entryError earlier first = .none
    swap
    · refine .inr ⟨[], first, later, rfl, by rwa [List.append_nil], ?_, fun front x back h =>
        absurd h (by simp)⟩
      rw [if_pos hfirst, List.append_nil]
      rfl
    rw [if_neg (not_not_intro hfirst)]
    -- the first entry passes, so the rest decides
    have shift : ∀ {before : List Entry}, earlier ++ [first] ++ before =
        earlier ++ first :: before := by simp
    rcases ih (earlier ++ [first]) with ⟨accepted, all⟩ | ⟨before, entry, after, rfl, fails, reported,
      passes⟩
    · refine .inl ⟨accepted, ?_⟩
      rintro (_ | ⟨head, before⟩) entry after split
      · obtain ⟨rfl, rfl⟩ := List.cons_eq_cons.mp split
        rwa [List.append_nil]
      · obtain ⟨rfl, tail⟩ := List.cons_eq_cons.mp split
        exact shift ▸ all before entry after tail
    · refine .inr ⟨first :: before, entry, after, rfl, shift ▸ fails, ?_, ?_⟩
      · rw [reported, shift]
        simp only [List.length_append, List.length_cons, List.length_nil, Nat.zero_add,
          ValidationResult.mk.injEq, true_and]
        omega
      · rintro (_ | ⟨head, front⟩) x back split
        · obtain ⟨rfl, rfl⟩ := List.cons_eq_cons.mp split
          rwa [List.append_nil]
        · obtain ⟨rfl, tail⟩ := List.cons_eq_cons.mp split
          exact shift ▸ passes front x back tail

/-- What the checks of a section find. -/
theorem section_cases {Entry : Type} (place : ConfigSection)
    {entryError : List Entry → Entry → ValidationError}
    {violated : List Entry → Entry → ValidationError → Prop}
    (diagnoses : ∀ earlier entry, Diagnoses (entryError earlier entry) (violated earlier entry))
    (entries : List Entry) :
    (firstError place entryError [] entries).ok = true ∧
        (∀ e i, ¬∃ entry, entries[i]? = some entry ∧ violated (entries.take i) entry e) ∨
      ∃ i error, error ≠ .none ∧ firstError place entryError [] entries = ⟨error, place, i⟩ ∧
        (∃ entry, entries[i]? = some entry ∧ violated (entries.take i) entry error) ∧
        ∀ e, ∀ j < i, ¬∃ entry, entries[j]? = some entry ∧ violated (entries.take j) entry e := by
  have split : ∀ {entries : List Entry} {i : ℕ} {entry : Entry}, entries[i]? = some entry →
      entries = entries.take i ++ entry :: entries.drop (i + 1) := by
    intro entries i entry there
    obtain ⟨within, rfl⟩ := List.getElem?_eq_some_iff.mp there
    rw [← List.drop_eq_getElem_cons within, List.take_append_drop]
  rcases firstError_cases place entryError [] entries with ⟨accepted, all⟩ |
    ⟨before, entry, after, rfl, fails, reported, passes⟩
  · refine .inl ⟨by rw [accepted]; rfl, fun e i => ?_⟩
    rintro ⟨entry, there, found⟩
    exact (diagnoses _ entry).complete (all _ entry _ (split there)) e found
  · rw [List.nil_append] at fails reported
    refine .inr ⟨before.length, _, fails, by simpa using reported, ⟨entry, by simp, ?_⟩,
      fun e j earlier => ?_⟩
    · rw [List.take_left]
      exact (diagnoses before entry).sound fails
    · rintro ⟨x, there, found⟩
      rw [List.getElem?_append_left earlier] at there
      rw [List.take_append_of_le_length earlier.le] at found
      exact (diagnoses _ _).complete (passes _ _ _ (split there)) e found

/-! ### Documents -/

/-- What validation should report: nothing if nothing is violated, and otherwise a violation that
none precedes. -/
def Reports (config : ControllerConfig) (result : ValidationResult) : Prop :=
  result.ok = true ∧ (∀ e place, ¬Violates config e place) ∨
    result.ok = false ∧ Violates config result.error (result.configSection, result.index) ∧
      ∀ e place, Precedes place (result.configSection, result.index) → ¬Violates config e place

/-- A document with its version and its sink settings in order has all its violations in the
sections of its entries. -/
theorem violates_cases {config : ControllerConfig} (pixels : 100 ≤ config.pixelCount ∧
      config.pixelCount ≤ 300) (version : config.version = 1) {e : ValidationError}
    {place : DocumentPlace} (found : Violates config e place) :
    place.1 = .actions ∨ place.1 = .rules ∨ place.1 = .outputs := by
  obtain ⟨place, index⟩ := place
  cases place with
  | document =>
    cases index with
    | zero => exact absurd version found.2
    | succ => exact found.elim
  | sinks =>
    cases index with
    | zero => exact absurd pixels found.2
    | succ => exact found.elim
  | actions => exact .inl rfl
  | rules => exact .inr (.inl rfl)
  | outputs => exact .inr (.inr rfl)

/-- The entries of a later section precede nothing that an earlier section reports. -/
theorem later_section {place result : DocumentPlace} (later : result.1.rank < place.1.rank) :
    ¬Precedes place result := by
  rintro (before | ⟨same, -⟩)
  · exact Nat.lt_asymm later before
  · exact absurd (same ▸ later) (Nat.lt_irrefl _)

theorem validate_reports : Reports config (validate config) := by
  have failed : ∀ {error : ValidationError} {place : ConfigSection} {index : ℕ},
      error ≠ .none → (ValidationResult.mk error place index).ok = false := by
    intro error place index real
    exact Bool.eq_false_iff.mpr fun ok => real (by simpa [ValidationResult.ok] using ok)
  have nothing : ∀ {place : DocumentPlace} {later : ConfigSection}, later.rank = 0 →
      ¬Precedes place (later, 0) := by
    rintro place later first (h | ⟨-, h⟩)
    · exact absurd (first ▸ h) (Nat.not_lt_zero _)
    · exact absurd h (Nat.not_lt_zero _)
  unfold validate
  by_cases pixels : 100 ≤ config.pixelCount ∧ config.pixelCount ≤ 300
  swap
  · rw [show inRange config.pixelCount kPixelCountMin kPixelCountMax = false from
      Bool.eq_false_iff.mpr fun h => pixels (inRange_eq_true.mp h), Bool.not_false, if_pos rfl]
    exact .inr ⟨rfl, ⟨rfl, pixels⟩, fun e place earlier => absurd earlier (nothing rfl)⟩
  rw [show inRange config.pixelCount kPixelCountMin kPixelCountMax = true from
    inRange_eq_true.mpr pixels, Bool.not_true, if_neg Bool.false_ne_true]
  by_cases version : config.version = 1
  swap
  · rw [if_pos (show config.version ≠ kSchemaVersion from version)]
    exact .inr ⟨rfl, ⟨rfl, version⟩, fun e place earlier => absurd earlier (nothing rfl)⟩
  rw [if_neg (show ¬config.version ≠ kSchemaVersion from not_not_intro version)]
  have elsewhere := @violates_cases config pixels version
  rcases section_cases .actions actionError_diagnoses config.actions with
    ⟨accepted, actions⟩ | ⟨i, error, real, reported, found, first⟩
  swap
  · rw [reported, failed real, Bool.not_false, if_pos rfl]
    refine .inr ⟨failed real, found, ?_⟩
    rintro e ⟨place, j⟩ earlier bad
    rcases elsewhere bad with rfl | rfl | rfl
    · exact first e j (earlier.resolve_left (Nat.lt_irrefl _)).2 bad
    · exact absurd earlier (later_section (Nat.lt_succ_self 1))
    · exact absurd earlier (later_section (Nat.lt_add_of_pos_right Nat.zero_lt_two))
  rw [accepted, Bool.not_true, if_neg Bool.false_ne_true]
  rcases section_cases .rules (ruleError_diagnoses config) config.rules with
    ⟨accepted, rules⟩ | ⟨i, error, real, reported, found, first⟩
  swap
  · rw [reported, failed real, Bool.not_false, if_pos rfl]
    refine .inr ⟨failed real, found, ?_⟩
    rintro e ⟨place, j⟩ earlier bad
    rcases elsewhere bad with rfl | rfl | rfl
    · exact actions e j bad
    · exact first e j (earlier.resolve_left (Nat.lt_irrefl _)).2 bad
    · exact absurd earlier (later_section (Nat.lt_succ_self 2))
  rw [accepted, Bool.not_true, if_neg Bool.false_ne_true]
  rcases section_cases .outputs (outputError_diagnoses config) config.outputs with
    ⟨accepted, outputs⟩ | ⟨i, error, real, reported, found, first⟩
  swap
  · rw [reported]
    refine .inr ⟨failed real, found, ?_⟩
    rintro e ⟨place, j⟩ earlier bad
    rcases elsewhere bad with rfl | rfl | rfl
    · exact actions e j bad
    · exact rules e j bad
    · exact first e j (earlier.resolve_left (Nat.lt_irrefl _)).2 bad
  refine .inl ⟨accepted, ?_⟩
  rintro e ⟨place, j⟩ bad
  rcases elsewhere bad with rfl | rfl | rfl
  · exact actions e j bad
  · exact rules e j bad
  · exact outputs e j bad

/-- **Validation is exact and ordered.** A document is accepted exactly if it violates no
constraint. Otherwise the result is a violation, with its place, and no violation precedes that
place: the version and the sink settings come first, then the actions, the rules and the outputs,
each in the order of the document. -/
theorem validation_exact (config : ControllerConfig) :
    let result := validate config
    (result.ok = true ↔ ∀ e place, ¬Violates config e place) ∧
      (result.ok = false → Violates config result.error (result.configSection, result.index) ∧
        ∀ e place, Precedes place (result.configSection, result.index) →
          ¬Violates config e place) := by
  intro result
  rcases validate_reports config with ⟨ok, clean⟩ | ⟨fails, found, first⟩
  · exact ⟨⟨fun _ => clean, fun _ => ok⟩, fun fails => absurd (ok.symm.trans fails) nofun⟩
  · exact ⟨⟨fun ok => absurd (ok.symm.trans fails) nofun, fun clean => absurd found (clean _ _)⟩,
      fun _ => ⟨found, first⟩⟩

-- a comparison that no enumerator names
example : validate
    { actions := [⟨ascii "lamp"⟩]
      rules := [.state { action := ascii "lamp"
                         condition := { signalKey := ascii "door", comparison := .unknown 3 } }] } =
    ⟨.unknownComparison, .rules, 0⟩ := by
  decide

/-- A strip of no pixels is not reported as an error of the document. -/
theorem pixel_count_reported_as_sinks :
    ¬∀ config, (validate config).error = .invalidPixelCount →
      (validate config).configSection = .document := by
  intro documented
  exact absurd (documented { pixelCount := 0 } (by decide)) (by decide)

end AccessoryController.Persisted
