import AccessoryController.ActionEngine.Engine
import AccessoryController.ActionEngine.LevelRules

/-!
# The ownership of actions

Every level action is driven by one rule. The builder refuses a second one, a refused call changes
nothing, and no other call changes which actions are driven.

## Main definitions

* `Engine.levelActions`: the actions that the rules of an engine drive
* `WellFormed e`: no action is driven twice, no sink registered twice, and all ranges validated

## Main results

* `refused_unchanged`: a refused configuration call leaves the engine unchanged
* `wellFormed_step`: every call preserves well-formedness
-/

namespace AccessoryController.ActionEngine

open VehicleSignals

/-- The actions whose levels the rules drive, with repetitions. -/
def Engine.levelActions (e : Engine) : List ActionId :=
  e.rules.filterMap Rule.levelAction ++ e.polledRules.map PolledRule.action

/-- An engine whose level actions have one owner each. -/
structure WellFormed (e : Engine) : Prop where
  owners : e.levelActions.Nodup
  sinks : e.sinks.Nodup
  ranges : ∀ rule ∈ e.polledRules, rule.valid

/-! ### Rules keep their identity -/

theorem Rule.levelAction_onNotice (rule : Rule) (notice : SignalNotification) :
    (rule.onNotice notice).1.levelAction = rule.levelAction := by
  unfold Rule.onNotice
  split
  · rfl
  · cases rule with
    | state rule =>
      change some (rule.onNotice notice).1.action = some rule.action
      rw [StateRule.onNotice_fst]
    | event rule => rfl

theorem Rule.levelAction_reset (rule : Rule) : rule.reset.levelAction = rule.levelAction := by
  cases rule <;> rfl

theorem PolledRule.action_reset (rule : PolledRule) : rule.reset.action = rule.action := by
  cases rule <;> rfl

theorem PolledRule.valid_reset {rule : PolledRule} (valid : rule.valid) : rule.reset.valid := by
  cases rule with
  | range rule => exact valid
  | sampledState rule => trivial

theorem valid_resolveRangeRule {catalog : SignalCatalogView} {config : RangeRuleConfig}
    {rule : RangeRule} (h : resolveRangeRule catalog config = .ok rule) :
    (PolledRule.range rule).valid ∧ rule.action = config.action := by
  unfold resolveRangeRule at h
  cases hfind : catalog.findKey config.signalKey with
  | none => simp [hfind] at h
  | some signal =>
    simp only [hfind] at h
    split at h
    · cases h
    split at h
    · cases h
    split at h
    · cases h
    · rename_i hvalid
      obtain rfl := Except.ok.inj h
      have hvalid : (LinearMapping.mk config.input config.output).valid = true := by
        simpa using hvalid
      exact ⟨hvalid, rfl⟩

/-! ### The builder -/

variable {status : ConfigStatus}

section Builder

variable {catalog : SignalCatalogView} {e : Engine}

theorem mem_levelActions {action : ActionId} :
    action ∈ e.levelActions ↔ e.drivesLevel action = true := by
  simp [Engine.levelActions, Engine.drivesLevel]

theorem checkAction_ok {action : ActionId} {level : Bool} (h : e.checkAction action level = .ok) :
    e.attached = false ∧ (level = true → action ∉ e.levelActions) := by
  unfold Engine.checkAction at h
  split at h
  · cases h
  rename_i hattached
  split at h
  · cases h
  split at h
  · cases h
  rename_i hdrives
  refine ⟨by simpa using hattached, fun hlevel hmem => hdrives ?_⟩
  rw [hlevel, mem_levelActions.mp hmem]
  rfl

/-- What a configuration call does: it is refused and changes nothing, or it extends a detached
engine by a sink or a rule, or clears it. A new level rule drives a new action. -/
inductive Configured (e : Engine) : Engine × ConfigStatus → Prop
  | refused {status : ConfigStatus} (failed : status ≠ .ok) : Configured e (e, status)
  | sink {sink : Sink} (detached : e.attached = false) (fresh : sink ∉ e.sinks) :
      Configured e ({ e with sinks := e.sinks ++ [sink] }, .ok)
  | cleared (detached : e.attached = false) :
      Configured e ({ e with sinks := [], rules := [], polledRules := [] }, .ok)
  | rule {rule : Rule} (detached : e.attached = false)
      (fresh : ∀ action, rule.levelAction = some action → action ∉ e.levelActions) :
      Configured e ({ e with rules := e.rules ++ [rule] }, .ok)
  | polled {rule : PolledRule} (detached : e.attached = false)
      (fresh : rule.action ∉ e.levelActions) (valid : rule.valid) :
      Configured e ({ e with polledRules := e.polledRules ++ [rule] }, .ok)

theorem configured_addRule {rule : Rule} (detached : e.attached = false)
    (fresh : ∀ action, rule.levelAction = some action → action ∉ e.levelActions) :
    Configured e (e.addRule rule) := by
  unfold Engine.addRule
  split
  · exact .refused (by decide)
  · exact .rule detached fresh

theorem configured_addPolledRule {rule : PolledRule} (detached : e.attached = false)
    (fresh : rule.action ∉ e.levelActions) (valid : rule.valid) :
    Configured e (e.addPolledRule rule) := by
  unfold Engine.addPolledRule
  split
  · exact .refused (by decide)
  · exact .polled detached fresh valid

theorem resolveOperand_error {signal : SignalMetadata} {condition : SignalCondition}
    {freshness : FreshnessRequirement}
    (h : resolveOperand signal condition freshness = .error status) : status ≠ .ok := by
  unfold resolveOperand at h
  split at h
  · cases h
  · cases h
  · split at h
    · obtain rfl := Except.error.inj h
      decide
    · cases h

theorem resolveThrough_error {condition : SignalCondition} {freshness : FreshnessRequirement}
    {delivery : SignalCapability}
    (h : resolveThrough catalog condition freshness delivery = .error status) : status ≠ .ok := by
  unfold resolveThrough at h
  split at h
  · obtain rfl := Except.error.inj h
    decide
  · split_ifs at h
    all_goals first
      | exact resolveOperand_error h
      | (obtain rfl := Except.error.inj h; decide)

theorem resolveRangeRule_error {config : RangeRuleConfig}
    (h : resolveRangeRule catalog config = .error status) : status ≠ .ok := by
  unfold resolveRangeRule at h
  split at h
  · obtain rfl := Except.error.inj h
    decide
  · split_ifs at h
    all_goals (obtain rfl := Except.error.inj h; decide)

/-- The resolution of a rule on notices. -/
theorem resolveRule_cases (catalog : SignalCatalogView) (e : Engine)
    (condition : SignalCondition) (action : ActionId) (freshness : FreshnessRequirement)
    (level : Bool) :
    (∃ status, status ≠ .ok ∧
      e.resolveRule catalog condition action freshness level = .error status) ∨
    ∃ resolved, e.resolveRule catalog condition action freshness level = .ok resolved ∧
      e.checkAction action level = .ok := by
  unfold Engine.resolveRule
  by_cases hcheck : e.checkAction action level = .ok
  · rw [if_neg (not_not.mpr hcheck)]
    cases hresolve : resolveCondition catalog condition freshness with
    | error status => exact .inl ⟨status, resolveThrough_error hresolve, rfl⟩
    | ok resolved => exact .inr ⟨resolved, rfl, hcheck⟩
  · rw [if_pos hcheck]
    exact .inl ⟨_, hcheck, rfl⟩

theorem configured_addSink (sink : Sink) : Configured e (e.addSink sink) := by
  unfold Engine.addSink
  split
  · exact .refused (by decide)
  split
  · exact .refused (by decide)
  split
  · exact .refused (by decide)
  · exact .sink (by simp_all) ‹_›

theorem configured_clear : Configured e e.clear := by
  unfold Engine.clear
  split
  · exact .refused (by decide)
  · exact .cleared (by simp_all)

theorem configured_addStateRule (config : StateRuleConfig) :
    Configured e (e.addStateRule catalog config) := by
  unfold Engine.addStateRule
  rcases resolveRule_cases catalog e config.condition config.action
    config.freshness true with ⟨status, failed, h⟩ | ⟨resolved, h, hcheck⟩ <;> rw [h]
  · exact .refused failed
  · obtain ⟨detached, fresh⟩ := checkAction_ok hcheck
    refine configured_addRule detached fun action haction => ?_
    obtain rfl := Option.some.inj haction
    exact fresh rfl

theorem configured_addEventRule (config : EventRuleConfig) :
    Configured e (e.addEventRule catalog config) := by
  unfold Engine.addEventRule
  rcases resolveRule_cases catalog e config.condition config.action
    config.freshness false with ⟨status, failed, h⟩ | ⟨resolved, h, hcheck⟩ <;> rw [h]
  · exact .refused failed
  · refine configured_addRule (checkAction_ok hcheck).1 fun action haction => ?_
    cases haction

theorem configured_addRangeRule (config : RangeRuleConfig) :
    Configured e (e.addRangeRule catalog config) := by
  unfold Engine.addRangeRule
  split
  · exact .refused ‹_›
  rename_i hcheck
  obtain ⟨detached, fresh⟩ := checkAction_ok (not_not.mp hcheck)
  split
  · exact .refused (resolveRangeRule_error ‹_›)
  · rename_i rule hrule
    obtain ⟨valid, haction⟩ := valid_resolveRangeRule hrule
    refine configured_addPolledRule detached ?_ valid
    change rule.action ∉ _
    rw [haction]
    exact fresh rfl

theorem configured_addSampledStateRule (config : SampledStateRuleConfig) :
    Configured e (e.addSampledStateRule catalog config) := by
  unfold Engine.addSampledStateRule
  split
  · exact .refused ‹_›
  rename_i hcheck
  obtain ⟨detached, fresh⟩ := checkAction_ok (not_not.mp hcheck)
  split
  · exact .refused (resolveThrough_error ‹_›)
  split
  · exact configured_addPolledRule detached (fresh rfl) trivial
  split
  · exact .refused (by decide)
  split
  · exact .refused (resolveThrough_error ‹_›)
  · exact configured_addPolledRule detached (fresh rfl) trivial

/-- **A refused configuration call** leaves the engine unchanged. -/
theorem refused_unchanged {call : Call} (answer : (e.step catalog call).2 = .config status)
    (failed : status ≠ .ok) : (e.step catalog call).1 = e := by
  have unchanged : ∀ {result : Engine × ConfigStatus}, Configured e result →
      result.2 = status → result.1 = e := by
    intro result configured hstatus
    cases configured with
    | refused _ => rfl
    | _ => exact absurd hstatus.symm failed
  cases call with
  | addSink sink => exact unchanged (configured_addSink sink) (Answer.config.inj answer)
  | clear => exact unchanged configured_clear (Answer.config.inj answer)
  | addStateRule config =>
    exact unchanged (configured_addStateRule config) (Answer.config.inj answer)
  | addEventRule config =>
    exact unchanged (configured_addEventRule config) (Answer.config.inj answer)
  | addRangeRule config =>
    exact unchanged (configured_addRangeRule config) (Answer.config.inj answer)
  | addSampledStateRule config =>
    exact unchanged (configured_addSampledStateRule config) (Answer.config.inj answer)
  | _ => cases answer

end Builder

/-! ### Every call -/

section Step

variable {e : Engine}

/-- Rules that keep their actions keep the ownership. -/
theorem WellFormed.congr {e' : Engine} (wellFormed : WellFormed e)
    (owners : e'.levelActions = e.levelActions) (sinks : e'.sinks = e.sinks)
    (ranges : ∀ rule ∈ e'.polledRules, rule.valid) : WellFormed e' :=
  ⟨by rw [owners]; exact wellFormed.owners, by rw [sinks]; exact wellFormed.sinks, ranges⟩

theorem nodup_concat {T : Type} {l : List T} {x : T} (nodup : l.Nodup) (fresh : x ∉ l) :
    (l ++ [x]).Nodup :=
  (List.perm_append_singleton x l).nodup_iff.mpr (List.nodup_cons.mpr ⟨fresh, nodup⟩)

theorem Configured.wellFormed {result : Engine × ConfigStatus} (configured : Configured e result)
    (wellFormed : WellFormed e) : WellFormed result.1 := by
  obtain ⟨owners, sinks, ranges⟩ := wellFormed
  cases configured with
  | refused _ => exact ⟨owners, sinks, ranges⟩
  | sink _ fresh =>
    exact ⟨owners, nodup_concat sinks fresh, ranges⟩
  | cleared _ => exact ⟨List.nodup_nil, List.nodup_nil, fun _ h => absurd h List.not_mem_nil⟩
  | @rule rule _ fresh =>
    refine ⟨?_, sinks, ranges⟩
    unfold Engine.levelActions
    cases haction : rule.levelAction with
    | none =>
      rw [List.filterMap_append, List.filterMap_cons_none haction, List.filterMap_nil,
        List.append_nil]
      exact owners
    | some action =>
      rw [List.filterMap_append, List.filterMap_cons_some haction, List.filterMap_nil,
        List.append_assoc, List.singleton_append]
      exact (List.perm_middle.nodup_iff).mpr (List.nodup_cons.mpr ⟨fresh action haction, owners⟩)
  | polled _ fresh valid =>
    refine ⟨?_, sinks, fun rule hrule => ?_⟩
    · unfold Engine.levelActions
      rw [List.map_append, ← List.append_assoc]
      exact nodup_concat owners fresh
    · rcases List.mem_append.mp hrule with hrule | hrule
      · exact ranges rule hrule
      · rw [List.mem_singleton.mp hrule]
        exact valid

section

variable (wellFormed : WellFormed e)
include wellFormed

theorem WellFormed.resetRules : WellFormed e.resetRules := by
  refine wellFormed.congr ?_ rfl fun rule hrule => ?_
  · simp only [Engine.levelActions, Engine.resetRules, List.filterMap_map, List.map_map]
    congr 1
    · exact List.filterMap_congr fun rule _ => Rule.levelAction_reset rule
    · exact List.map_congr_left fun rule _ => PolledRule.action_reset rule
  · obtain ⟨rule, hmem, rfl⟩ := List.mem_map.mp hrule
    exact PolledRule.valid_reset (wellFormed.ranges rule hmem)

theorem WellFormed.notice (n : SignalNotification) : WellFormed (e.notice n).1 := by
  refine wellFormed.congr ?_ rfl wellFormed.ranges
  simp only [Engine.levelActions, Engine.notice, List.filterMap_map]
  congr 1
  exact List.filterMap_congr fun rule _ => Rule.levelAction_onNotice rule n

theorem WellFormed.sampleNext (read : Read) : WellFormed (e.sampleNext read).1 := by
  unfold Engine.sampleNext
  cases hsampling : e.sampling with
  | none => exact wellFormed
  | some index =>
    dsimp only
    cases hrule : e.polledRules[index]? with
    | none => exact wellFormed.congr rfl rfl wellFormed.ranges
    | some rule =>
      obtain ⟨hindex, hget⟩ := List.getElem?_eq_some_iff.mp hrule
      refine wellFormed.congr ?_ rfl fun rule' hrule' => ?_
      · have same : (e.polledRules.map PolledRule.action).set index rule.action =
            e.polledRules.map PolledRule.action := by
          rw [← hget, ← List.map_set, List.set_getElem_self]
        simp only [Engine.levelActions, List.map_set, PolledRule.action_onSample, same]
      · rcases List.mem_or_eq_of_mem_set hrule' with hmem | rfl
        · exact wellFormed.ranges rule' hmem
        · exact PolledRule.valid_onSample
            (wellFormed.ranges rule (List.mem_of_getElem? hrule)) read

theorem WellFormed.attach (answers : ProviderAnswers) : WellFormed (e.attach answers).1 := by
  have reset := wellFormed.resetRules
  unfold Engine.attach
  split
  · exact wellFormed
  split
  · exact reset.congr rfl rfl reset.ranges
  · exact reset.congr rfl rfl reset.ranges

theorem WellFormed.detach (answers : ProviderAnswers) : WellFormed (e.detach answers).1 := by
  unfold Engine.detach
  split
  · exact wellFormed
  · exact wellFormed.congr rfl rfl wellFormed.ranges

end

/-- **Every call** keeps one owner for each level action. -/
theorem wellFormed_step (catalog : SignalCatalogView) (wellFormed : WellFormed e) (call : Call) :
    WellFormed (e.step catalog call).1 := by
  cases call with
  | addSink sink => exact (configured_addSink sink).wellFormed wellFormed
  | clear => exact configured_clear.wellFormed wellFormed
  | addStateRule config => exact (configured_addStateRule config).wellFormed wellFormed
  | addEventRule config => exact (configured_addEventRule config).wellFormed wellFormed
  | addRangeRule config => exact (configured_addRangeRule config).wellFormed wellFormed
  | addSampledStateRule config =>
    exact (configured_addSampledStateRule config).wellFormed wellFormed
  | attach answers => exact wellFormed.attach answers
  | detach answers => exact wellFormed.detach answers
  | notice n => exact wellFormed.notice n
  | samplePolledRules =>
    change WellFormed e.samplePolledRules.1
    unfold Engine.samplePolledRules
    split
    · exact wellFormed
    · exact wellFormed.congr rfl rfl wellFormed.ranges
  | sampleNext read => exact wellFormed.sampleNext read

end Step

end AccessoryController.ActionEngine
