import AccessoryController.ActionEngine.LevelTrace
import AccessoryController.Library.Latch

/-!
# The hysteresis of sampled state rules

A sampled state rule is a latch: a read that satisfies its activation condition sets it, and a
read that satisfies its release condition holds it. The engine accepts a release threshold only on
the far side of the activation threshold, so a read that sets the latch also holds it.

## Main definitions

* `SampledStateRule.activates`, `SampledStateRule.holdsOn`: a read that sets or holds the rule
* `Bracketed rule`: the release condition of a rule follows from its activation condition

## Main results

* `bracketed_step`: every rule that the engine accepts is bracketed
* `hysteresis_law`: the law of every run
-/

namespace AccessoryController.ActionEngine

open VehicleSignals Engine

/-- The read succeeded with an actionable reading that satisfies the condition. -/
def ResolvedCondition.satisfiedBy (condition : ResolvedCondition) (read : Read) : Bool :=
  read.success?.bind condition.evaluate == some true

namespace SampledStateRule

/-- The condition that keeps an active rule active. -/
def release (rule : SampledStateRule) : ResolvedCondition :=
  rule.releaseCondition.getD rule.activationCondition

/-- The read turns the rule on. -/
def activates (rule : SampledStateRule) (read : Read) : Bool :=
  rule.activationCondition.satisfiedBy read

/-- The read leaves an active rule on. -/
def holdsOn (rule : SampledStateRule) (read : Read) : Bool := rule.release.satisfiedBy read

/-- A sampled state rule is a latch of its reads. -/
theorem active_eq_on (rule : SampledStateRule) (reads : List Read) :
    rule.active reads = Latch.on rule.activates rule.holdsOn reads := by
  unfold active Latch.on
  congr 1
  funext wasActive read
  cases wasActive <;> rfl

/-- The same rule apart from what it remembers. -/
theorem onSample_conditions (rule : SampledStateRule) (read : Read) :
    (rule.onSample read).1.activationCondition = rule.activationCondition ∧
      (rule.onSample read).1.releaseCondition = rule.releaseCondition := by
  unfold onSample
  dsimp only
  split <;> exact ⟨rfl, rfl⟩

end SampledStateRule

/-- A read that satisfies the condition, spelled out. -/
theorem ResolvedCondition.satisfiedBy_iff (condition : ResolvedCondition) (read : Read) :
    condition.satisfiedBy read = true ↔ ∃ reading value, read.success? = some reading ∧
      actionableValue reading condition.operand.type condition.freshness = some value ∧
      condition.holds value = true := by
  simp only [satisfiedBy, evaluate, beq_iff_eq, Option.bind_eq_some_iff, Option.map_eq_some_iff]
  constructor
  · rintro ⟨reading, hread, value, hvalue, holds⟩
    exact ⟨reading, value, hread, hvalue, holds⟩
  · rintro ⟨reading, value, hread, hvalue, holds⟩
    exact ⟨reading, hread, value, hvalue, holds⟩

/-! ### Thresholds -/

/-- A read that satisfies the activation condition satisfies the release condition. -/
def SampledStateRule.Bracketed (rule : SampledStateRule) : Prop :=
  ∀ read, rule.activates read = true → rule.holdsOn read = true

/-- A release condition keeps the signal, the comparison and the freshness of its activation
condition, and its threshold lies on the far side of the activation threshold. -/
structure ReleasesAfter (activation release : ResolvedCondition) : Prop where
  comparison : release.comparison = activation.comparison
  freshness : release.freshness = activation.freshness
  thresholds : ∃ activationThreshold releaseThreshold,
    activation.operand = .number activationThreshold ∧
    release.operand = .number releaseThreshold ∧
    activationThreshold.isFinite = true ∧ releaseThreshold.isFinite = true ∧
    match activation.comparison with
    | .greater | .greaterOrEqual => releaseThreshold.units < activationThreshold.units
    | .less | .lessOrEqual => activationThreshold.units < releaseThreshold.units
    | .equal | .notEqual | .unknown _ => False

variable {release : ResolvedCondition} {rule : SampledStateRule} {e : Engine}

/-- A value beyond the activation threshold is beyond the release threshold. -/
theorem ReleasesAfter.holds {activation : ResolvedCondition}
    (after : ReleasesAfter activation release) {value : SignalValue}
    (holds : activation.holds value = true) : release.holds value = true := by
  obtain ⟨comparison, -, activationThreshold, releaseThreshold, hactivation, hrelease,
    hfinite, hfinite', apart⟩ := after
  have number := Binary32.isNaN_of_isFinite hfinite
  have number' := Binary32.isNaN_of_isFinite hfinite'
  unfold ResolvedCondition.holds at holds ⊢
  rw [comparison, hrelease]
  rw [hactivation] at holds
  simp only [SignalValue.asNumber, Option.getD_some] at holds ⊢
  -- one case for each direction of the comparison
  cases hcomparison : activation.comparison <;> rw [hcomparison] at apart holds <;>
    simp only [Binary32.lt, Binary32.le, number, number', Bool.not_false, Bool.true_and,
      Bool.and_true, Bool.and_eq_true, decide_eq_true_eq] at apart holds ⊢
  · exact ⟨holds.1, by omega⟩
  · exact ⟨holds.1, by omega⟩
  · exact ⟨holds.1, by omega⟩
  · exact ⟨holds.1, by omega⟩

/-- A rule without release condition is bracketed. -/
theorem bracketed_of_none (none : rule.releaseCondition = none) : rule.Bracketed := by
  intro read activates
  rw [SampledStateRule.holdsOn, SampledStateRule.release, none]
  exact activates

/-- A rule whose release condition lies after its activation condition is bracketed. -/
theorem bracketed_of_releasesAfter (hrelease : rule.releaseCondition = some release)
    (after : ReleasesAfter rule.activationCondition release) : rule.Bracketed := by
  intro read activates
  obtain ⟨reading, value, hread, hvalue, holds⟩ :=
    (ResolvedCondition.satisfiedBy_iff _ _).mp activates
  obtain ⟨activationThreshold, releaseThreshold, hactivation, hoperand, -⟩ := after.thresholds
  rw [SampledStateRule.holdsOn, SampledStateRule.release, hrelease, Option.getD_some,
    ResolvedCondition.satisfiedBy_iff]
  refine ⟨reading, value, hread, ?_, after.holds holds⟩
  rw [after.freshness, hoperand]
  rw [hactivation] at hvalue
  exact hvalue

/-! ### What the engine accepts -/

section Accepted

variable {catalog : SignalCatalogView}

/-- What a resolved numeric condition keeps of its configuration. -/
theorem resolveThrough_number {condition : SignalCondition} {freshness : FreshnessRequirement}
    {delivery : SignalCapability} {resolved : ResolvedCondition} {threshold : Binary32}
    (number : condition.operand = .number threshold)
    (h : resolveThrough catalog condition freshness delivery = .ok resolved) :
    resolved.comparison = condition.comparison ∧ resolved.freshness = freshness ∧
      resolved.operand = .number threshold := by
  unfold resolveThrough at h
  split at h
  · cases h
  split_ifs at h
  rw [resolveOperand, number] at h
  obtain rfl := Except.ok.inj h
  exact ⟨rfl, rfl, rfl⟩

/-- A validated release threshold lies on the far side of the activation threshold. -/
theorem releasesAfter_of_valid {condition : SignalCondition} {freshness : FreshnessRequirement}
    {releaseThreshold : Binary32} {activation : ResolvedCondition}
    (valid : hasValidReleaseThreshold condition releaseThreshold = true)
    (hactivation : resolveSampledCondition catalog condition freshness = .ok activation)
    (hrelease : resolveSampledCondition catalog
      { condition with operand := .number releaseThreshold } freshness = .ok release) :
    ReleasesAfter activation release := by
  unfold hasValidReleaseThreshold at valid
  split at valid
  · cases valid
  rename_i activationThreshold hnumber
  have operand : condition.operand = .number activationThreshold := by
    cases hoperand : condition.operand <;> rw [hoperand] at hnumber <;> cases hnumber
    rfl
  obtain ⟨comparison, sameFreshness, hoperand⟩ := resolveThrough_number operand hactivation
  obtain ⟨comparison', sameFreshness', hoperand'⟩ := resolveThrough_number rfl hrelease
  split at valid
  · cases valid
  rename_i finite
  simp only [Bool.or_eq_true, Bool.not_eq_true', not_or, Bool.not_eq_false] at finite
  refine ⟨comparison'.trans comparison.symm, sameFreshness'.trans sameFreshness.symm,
    activationThreshold, releaseThreshold, hoperand, hoperand', finite.1, finite.2, ?_⟩
  rw [comparison]
  cases hcomparison : condition.comparison <;> rw [hcomparison] at valid <;>
    simp_all [Binary32.lt]

/-- Every sampled state rule of the list is bracketed. -/
def AllBracketed (rules : List PolledRule) : Prop :=
  ∀ rule, .sampledState rule ∈ rules → rule.Bracketed

theorem allBracketed_append {rules : List PolledRule} {rule : PolledRule}
    (bracketed : AllBracketed rules) (last : AllBracketed [rule]) :
    AllBracketed (rules ++ [rule]) := by
  intro sampled hmem
  rcases List.mem_append.mp hmem with hmem | hmem
  · exact bracketed sampled hmem
  · exact last sampled hmem

/-- A map that keeps the conditions of a rule keeps it bracketed. -/
theorem SampledStateRule.Bracketed.congr {rule' : SampledStateRule} (bracketed : rule.Bracketed)
    (activation : rule'.activationCondition = rule.activationCondition)
    (release : rule'.releaseCondition = rule.releaseCondition) : rule'.Bracketed := by
  intro read
  simp only [SampledStateRule.activates, SampledStateRule.holdsOn, SampledStateRule.release,
    activation, release]
  exact bracketed read

/-- An accepted polled rule that is bracketed. -/
theorem allBracketed_addPolledRule {rule : PolledRule} (bracketed : AllBracketed e.polledRules)
    (last : AllBracketed [rule]) : AllBracketed (e.addPolledRule rule).1.polledRules := by
  unfold addPolledRule
  split
  · exact bracketed
  · exact allBracketed_append bracketed last

/-- **Only bracketed rules** are added to an engine. -/
theorem allBracketed_addSampledStateRule (config : SampledStateRuleConfig)
    (bracketed : AllBracketed e.polledRules) :
    AllBracketed (e.addSampledStateRule catalog config).1.polledRules := by
  have single : ∀ rule : SampledStateRule, rule.Bracketed → AllBracketed [.sampledState rule] := by
    intro rule hrule sampled hmem
    obtain rfl := PolledRule.sampledState.inj (List.mem_singleton.mp hmem)
    exact hrule
  unfold addSampledStateRule
  split
  · exact bracketed
  split
  · exact bracketed
  rename_i activation hactivation
  split
  · exact allBracketed_addPolledRule bracketed (single _ (bracketed_of_none rfl))
  rename_i releaseThreshold _
  split
  · exact bracketed
  rename_i valid
  split
  · exact bracketed
  · rename_i release hrelease
    refine allBracketed_addPolledRule bracketed (single _ ?_)
    exact bracketed_of_releasesAfter rfl
      (releasesAfter_of_valid (by simpa using valid) hactivation hrelease)

theorem allBracketed_reset {rules : List PolledRule} (bracketed : AllBracketed rules) :
    AllBracketed (rules.map PolledRule.reset) := by
  intro rule hmem
  obtain ⟨origin, horigin, heq⟩ := List.mem_map.mp hmem
  cases origin with
  | range origin => cases heq
  | sampledState origin =>
    obtain rfl := PolledRule.sampledState.inj heq
    exact (bracketed origin horigin).congr rfl rfl

theorem allBracketed_sampleNext (read : Read) (bracketed : AllBracketed e.polledRules) :
    AllBracketed (e.sampleNext read).1.polledRules := by
  unfold sampleNext
  split
  · exact bracketed
  split
  · exact bracketed
  rename_i index _ origin horigin
  intro rule hmem
  rcases List.mem_or_eq_of_mem_set hmem with hmem | heq
  · exact bracketed rule hmem
  · cases origin with
    | range origin => cases heq
    | sampledState origin =>
      obtain rfl := PolledRule.sampledState.inj heq
      obtain ⟨activation, release⟩ := origin.onSample_conditions read
      exact (bracketed origin (List.mem_of_getElem? horigin)).congr activation release

theorem allBracketed_attach (answers : ProviderAnswers) (bracketed : AllBracketed e.polledRules) :
    AllBracketed (e.attach answers).1.polledRules := by
  cases hattached : e.attached with
  | true =>
    have refused : (e.attach answers).1 = e := by simp [attach, hattached]
    rw [refused]
    exact bracketed
  | false =>
    rw [(attach_of_detached hattached answers).2]
    exact allBracketed_reset bracketed

/-- **Every call** keeps the rules of an engine bracketed. -/
theorem bracketed_step (e : Engine) (call : Call) (bracketed : AllBracketed e.polledRules) :
    AllBracketed (e.step catalog call).1.polledRules := by
  have nothing : AllBracketed [] := fun _ hmem => absurd hmem List.not_mem_nil
  have added : ∀ rule : Rule, (e.addRule rule).1.polledRules = e.polledRules := by
    intro rule
    unfold addRule
    split <;> rfl
  cases call with
  | addSink sink =>
    change AllBracketed (e.addSink sink).1.polledRules
    unfold addSink
    split_ifs <;> exact bracketed
  | clear =>
    change AllBracketed e.clear.1.polledRules
    unfold clear
    split_ifs
    · exact bracketed
    · exact nothing
  | addStateRule config =>
    change AllBracketed (e.addStateRule catalog config).1.polledRules
    unfold addStateRule
    split
    · exact bracketed
    · rw [added]
      exact bracketed
  | addEventRule config =>
    change AllBracketed (e.addEventRule catalog config).1.polledRules
    unfold addEventRule
    split
    · exact bracketed
    · rw [added]
      exact bracketed
  | addRangeRule config =>
    change AllBracketed (e.addRangeRule catalog config).1.polledRules
    unfold addRangeRule
    split
    · exact bracketed
    split
    · exact bracketed
    · refine allBracketed_addPolledRule bracketed fun rule hmem => ?_
      cases List.mem_singleton.mp hmem
  | addSampledStateRule config => exact allBracketed_addSampledStateRule config bracketed
  | attach answers => exact allBracketed_attach answers bracketed
  | detach answers =>
    change AllBracketed (e.detach answers).1.polledRules
    unfold detach
    split <;> exact bracketed
  | notice n => exact bracketed
  | samplePolledRules =>
    change AllBracketed e.samplePolledRules.1.polledRules
    unfold samplePolledRules
    split <;> exact bracketed
  | sampleNext read => exact allBracketed_sampleNext read bracketed

theorem bracketed_after (catalog : SignalCatalogView) (calls : List Call) :
    AllBracketed (Machine.after (step catalog) {} calls).polledRules :=
  Machine.invariant (P := fun (e : Engine) _ => AllBracketed e.polledRules)
    (fun _ hmem => absurd hmem List.not_mem_nil)
    (fun e _ call bracketed => bracketed_step e call bracketed) calls

end Accepted

/-! ### The law -/

/-- **The hysteresis law.** After every run of calls in any order, a sampled state rule of an
attached engine is on exactly if one of the reads that it has evaluated since the attachment
succeeded with an actionable reading that satisfies the activation condition, and every read after
that one succeeded with an actionable reading that satisfies the release condition. -/
theorem hysteresis_law (catalog : SignalCatalogView) (calls : List Call) :
    let e := Machine.after (step catalog) {} calls
    let log := sinceAttach (Machine.moves (step catalog) {} calls)
    e.attached = true → ∀ index (rule : SampledStateRule),
      e.polledRules[index]? = some (.sampledState rule) →
      (rule.lastOutput = some true ↔
        ∃ before read after, readsOf index log = before ++ read :: after ∧
          (∃ reading value, read.success? = some reading ∧
            actionableValue reading rule.activationCondition.operand.type
              rule.activationCondition.freshness = some value ∧
            rule.activationCondition.holds value = true) ∧
          ∀ later ∈ after, ∃ reading value, later.success? = some reading ∧
            actionableValue reading rule.release.operand.type rule.release.freshness =
              some value ∧
            rule.release.holds value = true) := by
  intro e log attached index rule hrule
  have follows := (wellFormed_and_follows_after catalog calls).2 attached
  have remembers : rule.lastOutput.getD false = rule.active (readsOf index log) :=
    (follows.polled index _ hrule).2.2
  have bracketed : rule.Bracketed :=
    bracketed_after catalog calls rule (List.mem_of_getElem? hrule)
  have isOn : rule.lastOutput = some true ↔ rule.active (readsOf index log) = true := by
    rw [← remembers, getD_false, beq_iff_eq]
  rw [isOn, rule.active_eq_on, Latch.on_iff bracketed]
  simp only [Latch.SetAndHeld, SampledStateRule.activates, SampledStateRule.holdsOn,
    ResolvedCondition.satisfiedBy_iff]

/-- A speed signal that can be polled. -/
def speedCatalog : SignalCatalogView :=
  [{ id := ⟨4⟩, key := [115], type := .number, capabilities := { read := true } }]

/-- A successful read of a speed, as the bits of the number. -/
def speedRead (bits : UInt32) : Read :=
  ⟨.ok, some { value := some (.number ⟨bits⟩), availability := .fresh }⟩

/-- A rule that turns on above 30 and off at or below 20 polls 31, and then 25. -/
def speedCalls : List Call :=
  [.addSampledStateRule
      { condition := ⟨[115], .greater, .number ⟨0x41F00000⟩⟩
        action := ⟨5⟩
        releaseThreshold := some ⟨0x41A00000⟩ },
    .attach ⟨fun _ => ⟨.ok, some 1⟩, fun _ => .ok⟩,
    .samplePolledRules, .sampleNext (speedRead 0x41F80000), .sampleNext (speedRead 0),
    .samplePolledRules, .sampleNext (speedRead 0x41C80000)]

/-- The rule is still on at 25. -/
theorem hysteresis_law_speed :
    ∃ rule : SampledStateRule,
      (Machine.after (step speedCatalog) {} speedCalls).polledRules[0]? =
        some (.sampledState rule) ∧ rule.lastOutput = some true := by
  refine ⟨_, rfl, ?_⟩
  refine (hysteresis_law speedCatalog speedCalls (by decide) 0 _ rfl).mpr ?_
  refine ⟨[], speedRead 0x41F80000, [speedRead 0x41C80000], rfl,
    ⟨_, .number ⟨0x41F80000⟩, rfl, by decide, by decide⟩, fun later hlater => ?_⟩
  rw [List.mem_singleton.mp hlater]
  exact ⟨_, .number ⟨0x41C80000⟩, rfl, by decide, by decide⟩

end AccessoryController.ActionEngine
