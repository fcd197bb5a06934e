import AccessoryController.Library.Outcome
import AccessoryController.ControllerConfig.Persisted.CanonicalText
import AccessoryController.ControllerConfig.Persisted.ValidatedApplies

/-!
# What the loader returns

A model that the loader returns has passed validation, and its strings have no NUL, since they were
C strings. Such a model is one that the serializer can write and the loader can read.

## Main definitions

* `ControllerConfig.NulFree`: no string of a model has a NUL

## Main results

* `parseControllerConfig_returns`: what the loader returns
* `readable_of_accepted`: an accepted model without NUL is readable
-/

open AccessoryController.ControllerConfig (Bytes)
open Outcome (Returns)

namespace AccessoryController.Persisted

open ValidationError

/-! ### Strings without NUL -/

def Operand.NulFree : Operand → Prop
  | .choice key => 0 ∉ key
  | _ => True

def Condition.NulFree (condition : Condition) : Prop :=
  0 ∉ condition.signalKey ∧ condition.operand.NulFree

def Rule.NulFree : Rule → Prop
  | .state rule => 0 ∉ rule.action ∧ rule.condition.NulFree
  | .sampledState rule => 0 ∉ rule.action ∧ rule.condition.NulFree
  | .event rule => 0 ∉ rule.action ∧ rule.condition.NulFree
  | .range rule => 0 ∉ rule.action ∧ 0 ∉ rule.signalKey

/-- No string of a model has a NUL. -/
structure ControllerConfig.NulFree (config : ControllerConfig) : Prop where
  actions : ∀ action ∈ config.actions, 0 ∉ action.name
  rules : ∀ rule ∈ config.rules, rule.NulFree
  outputs : ∀ output ∈ config.outputs, 0 ∉ output.action

/-! ### What is parsed -/

theorem returns_parseString (value : CJson) (path : Bytes) :
    Returns (parseString value path) fun text => 0 ∉ text := by
  unfold parseString
  split
  · exact .pure (notMem_cString _)
  · exact .error _

section

variable {T : Type} {Q : T → Prop}

theorem returns_parseField {parse : CJson → Bytes → Parsed T} (object : CJson) (name path : Bytes)
    (h : ∀ value path, Returns (parse value path) Q) :
    Returns (parseField object name path parse) Q :=
  Returns.after _ fun value => h value _

theorem returns_parseOptional {parse : CJson → Parsed T} {default : T} (field : CJson)
    (hdefault : Q default) (h : ∀ value, Returns (parse value) Q) :
    Returns (parseOptional field default parse) Q := by
  cases field with
  | nullptr => exact .pure hdefault
  | node address string type child next => exact h _

theorem returns_parseEntries {parser : CJson → Bytes → Parsed T} (name : Bytes)
    (h : ∀ item path, Returns (parser item path) Q) (index : ℕ) (first : CJson) :
    Returns (parseEntries name parser index first) fun entries => ∀ entry ∈ entries, Q entry := by
  induction first generalizing index with
  | nullptr => exact .pure fun entry hentry => absurd hentry List.not_mem_nil
  | node address string type child next _ ih =>
    refine ((Returns.after _ fun _ => h _ _).mapError _).bind fun entry hentry => ?_
    refine (ih (index + 1)).bind fun later hlater => ?_
    exact .pure (List.forall_mem_cons.mpr ⟨hentry, hlater⟩)

theorem returns_parseArray {parser : CJson → Bytes → Parsed T} (root : CJson) (name : Bytes)
    (h : ∀ item path, Returns (parser item path) Q) :
    Returns (parseArray root name parser) fun entries => ∀ entry ∈ entries, Q entry := by
  refine returns_parseOptional _ (fun entry hentry => absurd hentry List.not_mem_nil) ?_
  exact fun array => .after _ fun _ => returns_parseEntries name h 0 array.child

end

section

variable (object : CJson) (path : Bytes)

theorem returns_parseAction :
    Returns (parseAction object path) fun action => 0 ∉ action.name := by
  refine .after _ fun _ => ?_
  exact (returns_parseField _ _ _ returns_parseString).bind fun name hname => .pure hname

theorem returns_parseOperand : Returns (parseOperand object path) Operand.NulFree := by
  refine .after _ fun _ => ?_
  split
  · dsimp only
    split_ifs
    · exact .after _ fun value => .pure trivial
    · exact .after _ fun value => .pure trivial
    · exact (returns_parseString _ _).bind fun key hkey => .pure hkey
  · exact .error _

theorem returns_parseCondition : Returns (parseCondition object path) Condition.NulFree := by
  refine (returns_parseField _ _ _ returns_parseString).bind fun signalKey hsignal => ?_
  refine .after _ fun comparison => ?_
  have hoperand : ∀ value path, Returns (do
      requireObject value path
      parseOperand value path) Operand.NulFree := fun value path =>
    .after _ fun _ => returns_parseOperand value path
  exact (returns_parseField _ _ _ hoperand).bind fun operand h => .pure ⟨hsignal, h⟩

theorem returns_parseStateRule :
    Returns (parseStateRule object path) fun rule => (Rule.state rule).NulFree := by
  refine (returns_parseField _ _ _ returns_parseString).bind fun action haction => ?_
  refine .after _ fun freshness => ?_
  exact (returns_parseCondition object path).bind fun condition h => .pure ⟨haction, h⟩

theorem returns_parseSampledStateRule :
    Returns (parseSampledStateRule object path) fun rule => (Rule.sampledState rule).NulFree := by
  refine (returns_parseField _ _ _ returns_parseString).bind fun action haction => ?_
  refine .after _ fun freshness => ?_
  refine (returns_parseCondition object path).bind fun condition h => ?_
  exact .after _ fun release => .pure ⟨haction, h⟩

theorem returns_parseEventRule :
    Returns (parseEventRule object path) fun rule => (Rule.event rule).NulFree := by
  refine (returns_parseField _ _ _ returns_parseString).bind fun action haction => ?_
  refine .after _ fun freshness => ?_
  refine (returns_parseCondition object path).bind fun condition h => ?_
  exact .after _ fun edge => .pure ⟨haction, h⟩

theorem returns_parseRangeRule :
    Returns (parseRangeRule object path) fun rule => (Rule.range rule).NulFree := by
  refine (returns_parseField _ _ _ returns_parseString).bind fun action haction => ?_
  refine .after _ fun freshness => ?_
  refine (returns_parseField _ _ _ returns_parseString).bind fun signalKey hsignal => ?_
  refine .after _ fun input => .after _ fun output => ?_
  exact .pure ⟨haction, hsignal⟩

theorem returns_parseRule : Returns (parseRule object path) Rule.NulFree := by
  refine .after _ fun kind => ?_
  cases kind with
  | state =>
    exact .after _ fun _ => (returns_parseStateRule object path).bind fun rule h => .pure h
  | sampledState =>
    exact .after _ fun _ => (returns_parseSampledStateRule object path).bind fun rule h => .pure h
  | event =>
    exact .after _ fun _ => (returns_parseEventRule object path).bind fun rule h => .pure h
  | range =>
    exact .after _ fun _ => (returns_parseRangeRule object path).bind fun rule h => .pure h

theorem returns_parseLedEffect :
    Returns (parseLedEffect object path) fun binding => 0 ∉ binding.action := by
  refine (returns_parseField _ _ _ returns_parseString).bind fun action haction => ?_
  exact .after _ fun priority => .after _ fun effect => .pure haction

theorem returns_parseZoneBinding :
    Returns (parseZoneBinding object path) fun binding => 0 ∉ binding.action := by
  refine (returns_parseField _ _ _ returns_parseString).bind fun action haction => ?_
  exact .after _ fun priority => .after _ fun zone => .after _ fun color => .pure haction

theorem returns_parseOutput (root : CJson) (json : Bytes) :
    Returns (parseOutput root json object path) fun output => 0 ∉ output.action := by
  refine .after _ fun kind => ?_
  cases kind with
  | ledEffect =>
    exact .after _ fun _ => (returns_parseLedEffect object path).bind fun binding h => .pure h
  | ledFill =>
    exact .after _ fun _ => (returns_parseZoneBinding object path).bind fun binding h => .pure h
  | ledSolid =>
    exact .after _ fun _ => (returns_parseZoneBinding object path).bind fun binding h => .pure h
  | ledTransient =>
    refine .after _ fun _ => (returns_parseZoneBinding object path).bind fun binding h => ?_
    exact .after _ fun duration => .pure h

end

theorem returns_parseDocument (root : CJson) (json : Bytes) :
    Returns (parseDocument root json) ControllerConfig.NulFree := by
  unfold parseDocument
  refine .guard fun _ => ?_
  refine .after _ fun _ => .after _ fun pixelCount => .after _ fun version => ?_
  refine (returns_parseArray root _ returns_parseAction).bind fun actions hactions => ?_
  refine (returns_parseArray root _ returns_parseRule).bind fun rules hrules => ?_
  have houtput := fun item path => returns_parseOutput item path root json
  refine (returns_parseArray root _ houtput).bind fun outputs houtputs => ?_
  exact .pure ⟨hactions, hrules, houtputs⟩

/-- **A model that the loader returns** is valid, and its strings have no NUL. -/
theorem parseControllerConfig_returns (library : ExternalLibrary) (json : Bytes) :
    Returns (parseControllerConfig library json) fun config =>
      (validate config).ok = true ∧ config.NulFree := by
  refine .guard fun _ => .guard fun _ => ?_
  dsimp only
  split
  · exact .error _
  · exact .error _
  · refine .guard fun _ => (returns_parseDocument _ _).bind fun config hnul => ?_
    split_ifs with hvalid
    · exact .error _
    · exact .pure ⟨by simpa using hvalid, hnul⟩

/-! ### What is accepted -/

theorem readable_of_conditionError {condition : Condition} (h : conditionError condition = .none)
    (hnul : condition.NulFree) : condition.Readable := by
  unfold conditionError at h
  split_ifs at h with hkey hname hunsupported
  · exact absurd (otherwise_eq_none.mp h).2 (by decide)
  have hoperand := (otherwise_eq_none.mp h).1
  refine ⟨hnul.1, Option.isSome_iff_ne_none.mpr (by simpa using hname), ?_⟩
  cases hvalue : condition.operand with
  | boolean value => trivial
  | number value =>
    rw [hvalue, operandError] at hoperand
    split_ifs at hoperand with hfinite
    exact hfinite
  | choice key =>
    have hfree := hnul.2
    rwa [hvalue] at hfree

theorem isFinite_of_isValidRelease {condition : Condition} {release : Binary32}
    (h : isValidRelease condition release = true) : release.isFinite = true := by
  unfold isValidRelease at h
  split at h
  · exact (Bool.and_eq_true_iff.mp h).1
  · cases h

theorem isFinite_of_finite {range : ActionEngine.NumericRange} (h : range.finite = true) :
    range.fromBound.isFinite = true ∧ range.toBound.isFinite = true := by
  simp only [ActionEngine.NumericRange.finite, Bool.and_eq_true] at h
  exact h.1

theorem named_of_freshnessError {freshness : ActionEngine.FreshnessRequirement}
    (h : freshnessError freshness = .none) : Named freshness := by
  unfold freshnessError at h
  split_ifs at h with named
  exact named

theorem readable_of_rule {rule : Rule} (h : rule.bodyError = .none) (hnul : rule.NulFree) :
    rule.Readable := by
  cases rule with
  | state rule =>
    obtain ⟨hcondition, hfreshness⟩ := otherwise_eq_none.mp h
    exact ⟨hnul.1, named_of_freshnessError hfreshness,
      readable_of_conditionError hcondition hnul.2⟩
  | sampledState rule =>
    obtain ⟨hcondition, hrest⟩ := otherwise_eq_none.mp h
    obtain ⟨hfreshness, hrelease⟩ := otherwise_eq_none.mp hrest
    refine ⟨hnul.1, named_of_freshnessError hfreshness,
      readable_of_conditionError hcondition hnul.2, fun release hsome => ?_⟩
    rw [Option.mem_def] at hsome
    rw [hsome, Option.any_some] at hrelease
    split_ifs at hrelease with hinvalid
    exact isFinite_of_isValidRelease (by simpa using hinvalid)
  | event rule =>
    obtain ⟨hcondition, hrest⟩ := otherwise_eq_none.mp h
    split_ifs at hrest with hedge
    exact ⟨hnul.1, named_of_freshnessError hrest, readable_of_conditionError hcondition hnul.2,
      Option.isSome_iff_ne_none.mpr (by simpa using hedge)⟩
  | range rule =>
    change rule.bodyError = .none at h
    unfold RangeRule.bodyError at h
    split_ifs at h with hkey hrange
    · exact absurd (otherwise_eq_none.mp h).2 (by decide)
    have hfreshness := (otherwise_eq_none.mp h).1
    simp only [Bool.or_eq_true, Bool.not_eq_true', not_or, Bool.not_eq_false] at hrange
    exact ⟨hnul.1, named_of_freshnessError hfreshness, hnul.2,
      isFinite_of_finite hrange.1.1, isFinite_of_finite hrange.1.2⟩

theorem small_of_inRange {value minimum maximum : ℤ} (h : inRange value minimum maximum = true)
    (hminimum : 0 ≤ minimum) (hmaximum : maximum ≤ 2 ^ 53) : Small value := by
  obtain ⟨hlow, hhigh⟩ := inRange_eq_true.mp h
  unfold Small
  omega

theorem readable_of_zoneBindingError {zone : LedZone} {color : Rgb} {priority : ℤ}
    (h : zoneBindingError zone color priority = .none) :
    zone.Readable ∧ color.Readable ∧ Small priority := by
  obtain ⟨hzone, hrest⟩ := otherwise_eq_none.mp h
  obtain ⟨hstart, hlength, hinside⟩ := fits_of_zoneError hzone
  simp only [kZonePixels] at hinside
  split_ifs at hrest with hcolor hpriority
  simp only [Bool.or_eq_true, Bool.not_eq_true', not_or, Bool.not_eq_false] at hcolor hpriority
  refine ⟨⟨?_, ?_, named_of_zoneError hzone⟩, ⟨?_, ?_, ?_⟩, ?_⟩
  · unfold Small
    omega
  · unfold Small
    omega
  · exact small_of_inRange hcolor.1.1 (by decide) (by decide)
  · exact small_of_inRange hcolor.1.2 (by decide) (by decide)
  · exact small_of_inRange hcolor.2 (by decide) (by decide)
  · exact small_of_inRange hpriority (by decide) (by decide)

theorem readable_of_output {output : OutputBinding} (h : output.bodyError = .none)
    (hnul : 0 ∉ output.action) : output.Readable := by
  cases output with
  | ledEffect binding =>
    change binding.bodyError = .none at h
    unfold LedEffectBinding.bodyError at h
    split_ifs at h with heffect hpriority
    simp only [Bool.not_eq_true', Bool.not_eq_false] at hpriority
    exact ⟨hnul, Option.isSome_iff_ne_none.mpr (by simpa using heffect),
      small_of_inRange hpriority (by decide) (by decide)⟩
  | ledFill binding =>
    obtain ⟨hzone, hcolor, hpriority⟩ := readable_of_zoneBindingError h
    exact ⟨hnul, hzone, hcolor, hpriority⟩
  | ledTransient binding =>
    obtain ⟨hbody, hrest⟩ := otherwise_eq_none.mp h
    obtain ⟨hzone, hcolor, hpriority⟩ := readable_of_zoneBindingError hbody
    split_ifs at hrest with hduration
    simp only [Bool.not_eq_true', Bool.not_eq_false] at hduration
    exact ⟨hnul, hzone, hcolor, hpriority, small_of_inRange hduration (by decide) (by decide)⟩
  | ledSolid binding =>
    obtain ⟨hzone, hcolor, hpriority⟩ := readable_of_zoneBindingError h
    exact ⟨hnul, hzone, hcolor, hpriority⟩

/-- **An accepted model** without NUL is readable. -/
theorem readable_of_accepted {config : ControllerConfig} (h : (validate config).ok = true)
    (hnul : config.NulFree) : config.Readable := by
  obtain ⟨hpixels, hversion, -, hrules, houtputs⟩ := validate_ok.mp h
  refine ⟨?_, small_of_inRange hpixels (by decide) (by decide), hnul.actions, ?_, ?_⟩
  · unfold Small
    rw [hversion]
    decide
  · intro rule hrule
    obtain ⟨before, after, hsplit⟩ := List.append_of_mem hrule
    exact readable_of_rule (ruleAccepted (hrules before rule after hsplit)).body
      (hnul.rules rule hrule)
  · intro output houtput
    obtain ⟨before, after, hsplit⟩ := List.append_of_mem houtput
    exact readable_of_output (outputAccepted (houtputs before output after hsplit)).body
      (hnul.outputs output houtput)

end AccessoryController.Persisted
