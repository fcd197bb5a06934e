import AccessoryController.ActionEngine.LevelTrace

/-!
# What an event rule triggers on

An event rule compares the verdict of each notice with that of the notice before it. The law is
stated on the log of the engine, in which the notices of a rule are mixed with everything else
that happens to the engine.

## Main definitions

* `EventRule.Turns`: two actionable readings between which the condition changes along the edge
* `Triggered rule index log`: an event rule agrees with its log

## Main results

* `EventRule.onNotice_snd`: what a rule emits on one notice
* `triggered_step`: one call keeps the agreement
* `event_trigger_law`: the law of every run
-/

namespace AccessoryController.ActionEngine

open VehicleSignals History

/-- The trigger of an event rule. -/
def EventRule.trigger (rule : EventRule) : ActionCommand :=
  { action := rule.action, kind := .trigger }

/-- Both readings are actionable and the condition changes between them along the edge. -/
def EventRule.Turns (rule : EventRule) (previous current : SignalReading) : Prop :=
  ∃ old new,
    actionableValue previous rule.condition.operand.type rule.condition.freshness = some old ∧
    actionableValue current rule.condition.operand.type rule.condition.freshness = some new ∧
    rule.condition.holds old ≠ rule.condition.holds new ∧
    (rule.condition.holds new = true ↔ rule.edge = .becomesTrue)

/-- A notice of an event rule after the readings seen before it triggers. -/
def EventRule.TriggersOn (rule : EventRule) (seen : List SignalReading)
    (n : SignalNotification) : Prop :=
  n.initial = false ∧ n.becameUnavailable = false ∧ n.recovered = false ∧
    ∃ previous, seen.getLast? = some previous ∧ rule.Turns previous n.current

/-! ### One notice -/

theorem restartsBaseline_eq_false {n : SignalNotification} :
    restartsBaseline n = false ↔
      n.initial = false ∧ n.becameUnavailable = false ∧ n.recovered = false := by
  simp [restartsBaseline, and_assoc]

/-- Two verdicts fire when they are given, differ, and the second follows the edge. -/
theorem EventRule.fires_eq_true (rule : EventRule) (previous current : Option Bool) :
    rule.fires previous current = true ↔ ∃ old new, previous = some old ∧ current = some new ∧
      old ≠ new ∧ (new = true ↔ rule.edge = .becomesTrue) := by
  unfold EventRule.fires
  split
  · rename_i old new
    cases old <;> cases new <;> cases rule.edge <;> simp
  · rename_i missing
    constructor
    · intro h
      cases h
    · rintro ⟨old, new, rfl, rfl, -⟩
      exact (missing old new rfl rfl).elim

/-- The verdicts of two readings fire exactly where the condition turns. -/
theorem EventRule.fires_evaluate (rule : EventRule) (previous current : SignalReading) :
    rule.fires (rule.condition.evaluate previous) (rule.condition.evaluate current) = true ↔
      rule.Turns previous current := by
  rw [fires_eq_true]
  simp only [ResolvedCondition.evaluate, Option.map_eq_some_iff, EventRule.Turns]
  constructor
  · rintro ⟨_, _, ⟨old, hold, rfl⟩, ⟨new, hnew, rfl⟩, differ, along⟩
    exact ⟨old, new, hold, hnew, differ, along⟩
  · rintro ⟨old, new, hold, hnew, differ, along⟩
    exact ⟨_, _, ⟨old, hold, rfl⟩, ⟨new, hnew, rfl⟩, differ, along⟩

/-- **One notice** of a rule whose baseline is the verdict of the last reading seen. -/
theorem EventRule.onNotice_snd {rule : EventRule} {seen : List SignalReading}
    (baseline : rule.baseline = seen.getLast?.bind rule.condition.evaluate)
    (n : SignalNotification) :
    ((rule.onNotice n).2 = some rule.trigger ↔ rule.TriggersOn seen n) ∧
      ∀ command ∈ (rule.onNotice n).2, command = rule.trigger := by
  constructor
  · have emits : (rule.onNotice n).2 = some rule.trigger ↔
        rule.fires (if restartsBaseline n then none else rule.baseline)
          (rule.condition.evaluate n.current) = true := by
      simp [EventRule.onNotice, EventRule.trigger]
    rw [emits]
    cases restarts : restartsBaseline n with
    | true =>
      -- no transition spans a restart of the baseline
      simp only [if_true, fires_eq_true, reduceCtorEq, false_and, exists_false, false_iff]
      rintro ⟨initial, unavailable, recovered, -⟩
      rw [restartsBaseline_eq_false.mpr ⟨initial, unavailable, recovered⟩] at restarts
      cases restarts
    | false =>
      obtain ⟨initial, unavailable, recovered⟩ := restartsBaseline_eq_false.mp restarts
      rw [if_neg (by simp), baseline]
      simp only [EventRule.TriggersOn, initial, unavailable, recovered, true_and]
      cases hlast : seen.getLast? with
      | none => simp [EventRule.fires_eq_true]
      | some previous =>
        rw [Option.bind_some, fires_evaluate]
        simp
  · intro command hcommand
    simp only [EventRule.onNotice, Option.mem_def, Option.ite_none_right_eq_some] at hcommand
    exact (Option.some.inj hcommand.2).symm

/-! ### The agreement of a rule with its log -/

/-- An event rule agrees with its log: its baseline is the verdict of the last notice of its
signal, and on each notice it emitted what the notices before it decide. -/
structure Triggered (rule : EventRule) (index : ℕ) (log : Log) : Prop where
  baseline : rule.baseline = (noticesOf rule.signal log).getLast?.bind rule.condition.evaluate
  emits : Lawful (fun before move => ∀ n, move.2 = .notice n →
    (noticeEmission index move = some rule.trigger ↔
      n.id = rule.signal ∧ rule.TriggersOn (noticesOf rule.signal before) n) ∧
    ∀ command ∈ noticeEmission index move, command = rule.trigger) log

/-- Every event rule of an engine agrees with the log. -/
def AllTriggered (e : Engine) (log : Log) : Prop :=
  ∀ index (rule : EventRule), e.rules[index]? = some (.event rule) → Triggered rule index log

/-- A call that is no notice and leaves the rules alone keeps the agreement. -/
theorem AllTriggered.quiet {e e' : Engine} {log : Log} {call : Call}
    (triggered : AllTriggered e log) (rules : e'.rules = e.rules)
    (quiet : ∀ n, call ≠ .notice n) : AllTriggered e' (log ++ [(e, call)]) := by
  intro index rule hrule
  rw [rules] at hrule
  obtain ⟨baseline, emits⟩ := triggered index rule hrule
  have unnoted : noticesOf rule.signal [(e, call)] = [] := by
    cases call with
    | notice n => exact absurd rfl (quiet n)
    | _ => rfl
  refine ⟨?_, lawful_snoc.mpr ⟨emits, fun n hn => absurd hn (quiet n)⟩⟩
  rw [noticesOf_append, unnoted, List.append_nil]
  exact baseline

/-- **A notice** keeps the agreement. -/
theorem triggered_notice {e : Engine} {log : Log} (triggered : AllTriggered e log)
    (n : SignalNotification) :
    AllTriggered (e.notice n).1 (log ++ [(e, .notice n)]) := by
  intro index rule' hrule'
  change (e.rules.map fun rule => (rule.onNotice n).1)[index]? = some (.event rule') at hrule'
  rw [List.getElem?_map] at hrule'
  obtain ⟨origin, horigin, heq⟩ := Option.map_eq_some_iff.mp hrule'
  have emission : noticeEmission index (e, .notice n) = (origin.onNotice n).2 := by
    simp [noticeEmission, horigin]
  cases origin with
  | state rule =>
    unfold Rule.onNotice at heq
    split at heq <;> cases heq
  | event rule =>
    obtain ⟨baseline, emits⟩ := triggered index rule horigin
    by_cases hsignal : (Rule.event rule).signal = n.id
    · -- a notice of the rule's signal
      have hid : n.id = rule.signal := hsignal.symm
      rw [Rule.onNotice, if_neg (not_not.mpr hsignal)] at heq emission
      obtain rfl : (rule.onNotice n).1 = rule' := Rule.event.inj heq
      have noted : noticesOf rule.signal [(e, .notice n)] = [n.current] := by
        simp [noticesOf, hid]
      refine ⟨?_, lawful_snoc.mpr ⟨emits, ?_⟩⟩
      · change rule.condition.evaluate n.current =
          (noticesOf rule.signal (log ++ [(e, .notice n)])).getLast?.bind rule.condition.evaluate
        rw [noticesOf_append, noted, List.getLast?_concat, Option.bind_some]
      · rintro n' ⟨⟩
        rw [emission]
        obtain ⟨fires, only⟩ := EventRule.onNotice_snd baseline n
        exact ⟨fires.trans (iff_and_self.mpr fun _ => hid), only⟩
    · -- a notice of another signal
      have hid : n.id ≠ rule.signal := fun h => hsignal h.symm
      rw [Rule.onNotice, if_pos hsignal] at heq emission
      obtain rfl := Rule.event.inj heq
      have unnoted : noticesOf rule.signal [(e, .notice n)] = [] := by
        simp [noticesOf, hid]
      refine ⟨?_, lawful_snoc.mpr ⟨emits, ?_⟩⟩
      · rw [noticesOf_append, unnoted, List.append_nil]
        exact baseline
      · rintro n' ⟨⟩
        rw [emission]
        simp [hid]

/-- An attached engine changes its rules on notices only. -/
theorem rules_step {catalog : SignalCatalogView} {e : Engine} (attached : e.attached = true)
    {call : Call} (quiet : ∀ n, call ≠ .notice n) : (e.step catalog call).1.rules = e.rules := by
  have configuration : ∀ {result : Engine × ConfigStatus}, Configured e result →
      result.1.rules = e.rules := fun configured => by rw [configured.of_attached attached]
  cases call with
  | notice n => exact absurd rfl (quiet n)
  | addSink sink => exact configuration (configured_addSink sink)
  | clear => exact configuration configured_clear
  | addStateRule config => exact configuration (configured_addStateRule config)
  | addEventRule config => exact configuration (configured_addEventRule config)
  | addRangeRule config => exact configuration (configured_addRangeRule config)
  | addSampledStateRule config => exact configuration (configured_addSampledStateRule config)
  | attach answers => simp [Engine.step, Engine.attach, attached]
  | detach answers =>
    change (e.detach answers).1.rules = e.rules
    unfold Engine.detach
    split <;> rfl
  | samplePolledRules =>
    change e.samplePolledRules.1.rules = e.rules
    unfold Engine.samplePolledRules
    split <;> rfl
  | sampleNext read =>
    change (e.sampleNext read).1.rules = e.rules
    unfold Engine.sampleNext
    split
    · rfl
    · split <;> rfl

/-- **One call** on an attached engine keeps the agreement. -/
theorem triggered_step {catalog : SignalCatalogView} {e : Engine} {log : Log}
    (attached : e.attached = true) (triggered : AllTriggered e log) (call : Call) :
    AllTriggered (e.step catalog call).1 (log ++ [(e, call)]) := by
  by_cases noticed : ∃ n, call = .notice n
  · obtain ⟨n, rfl⟩ := noticed
    exact triggered_notice triggered n
  · have quiet : ∀ n, call ≠ .notice n := fun n heq => noticed ⟨n, heq⟩
    exact triggered.quiet (rules_step attached quiet) quiet

/-- The rules of an engine that was reset have seen nothing. -/
theorem triggered_reset {e e' : Engine} (rules : e'.rules = e.rules.map Rule.reset) :
    AllTriggered e' [] := by
  intro index rule hrule
  rw [rules, List.getElem?_map] at hrule
  obtain ⟨origin, -, horigin⟩ := Option.map_eq_some_iff.mp hrule
  cases origin with
  | state origin => cases horigin
  | event origin =>
    obtain rfl := Rule.event.inj horigin
    exact ⟨rfl, lawful_nil _⟩

theorem triggered_after (catalog : SignalCatalogView) (calls : List Call) :
    (Machine.after (Engine.step catalog) {} calls).attached = true →
      AllTriggered (Machine.after (Engine.step catalog) {} calls)
        (sinceAttach (Machine.moves (Engine.step catalog) {} calls)) := by
  refine (attached_moves (I := fun _ => True) (P := AllTriggered) trivial
    (fun _ _ _ => trivial) ?_ ?_ calls).2
  · intro e answers _ detached
    exact triggered_reset (attach_of_detached detached answers).1
  · exact fun _ _ call _ attached triggered => triggered_step attached triggered call

/-- **What an event rule triggers on.** In every run of calls in any order, in an attached engine,
an event rule emits its trigger on a notice of the log since the attachment exactly if the notice
is of its signal and carries none of the flags for an initial, an unavailable and a recovered
signal, a notice of the signal came before it in the log, the readings of both are actionable, and
the condition changes between them along the edge of the rule. It emits nothing else; in
particular nothing on the first notice of its signal, and nothing on a coalesced notice that spans
a gap in availability. -/
theorem event_trigger_law (catalog : SignalCatalogView) (calls : List Call) :
    let e := Machine.after (Engine.step catalog) {} calls
    let log := sinceAttach (Machine.moves (Engine.step catalog) {} calls)
    e.attached = true → ∀ index (rule : EventRule), e.rules[index]? = some (.event rule) →
      ∀ before met n after, log = before ++ (met, .notice n) :: after →
        (noticeEmission index (met, .notice n) = some rule.trigger ↔
          n.id = rule.signal ∧ n.initial = false ∧ n.becameUnavailable = false ∧
            n.recovered = false ∧ ∃ previous,
              (noticesOf rule.signal before).getLast? = some previous ∧
                rule.Turns previous n.current) ∧
        (∀ command ∈ noticeEmission index (met, .notice n), command = rule.trigger) ∧
        (noticesOf rule.signal before = [] → noticeEmission index (met, .notice n) = none) ∧
        (n.becameUnavailable = true ∨ n.recovered = true →
          noticeEmission index (met, .notice n) = none) := by
  intro e log attached index rule hrule before met n after hsplit
  obtain ⟨fires, only⟩ := (triggered_after catalog calls attached index rule hrule).emits
    before (met, .notice n) after hsplit n rfl
  -- a rule that does not trigger emits nothing
  have silent : ¬ (n.id = rule.signal ∧ rule.TriggersOn (noticesOf rule.signal before) n) →
      noticeEmission index (met, .notice n) = none := by
    intro quiet
    cases hemission : noticeEmission index (met, .notice n) with
    | none => rfl
    | some command =>
      rw [only command hemission] at hemission
      exact absurd (fires.mp hemission) quiet
  refine ⟨fires, only, fun first => silent ?_, fun gap => silent ?_⟩
  · rintro ⟨-, -, -, -, previous, hlast, -⟩
    rw [first] at hlast
    cases hlast
  · rintro ⟨-, -, available, steady, -⟩
    rcases gap with lost | back
    · rw [available] at lost
      cases lost
    · rw [steady] at back
      cases back

/-- A door signal that a rule can be notified of. -/
def doorCatalog : SignalCatalogView :=
  [{ id := ⟨3⟩, key := [100], capabilities := { notify := true } }]

/-- The notice of a fresh door signal. -/
def doorNotice (isOpen : Bool) : SignalNotification :=
  { id := ⟨3⟩
    current := { value := some (.boolean isOpen), availability := .fresh } }

/-- A rule on the opening door is attached; the door is reported closed, and then open. -/
def doorCalls : List Call :=
  [.addEventRule { condition := ⟨[100], .equal, .boolean true⟩, action := ⟨5⟩ },
    .attach ⟨fun _ => ⟨.ok, some 1⟩, fun _ => .ok⟩,
    .notice { doorNotice false with initial := true },
    .notice (doorNotice true)]

/-- The rule triggers when the door opens. -/
theorem event_trigger_law_door :
    ∃ before met, sinceAttach (Machine.moves (Engine.step doorCatalog) {} doorCalls) =
        before ++ [(met, .notice (doorNotice true))] ∧
      noticeEmission 0 (met, .notice (doorNotice true)) =
        some { action := ⟨5⟩, kind := .trigger } := by
  refine ⟨_, _, (List.dropLast_append_getLast (List.cons_ne_nil _ _)).symm, ?_⟩
  refine (event_trigger_law doorCatalog doorCalls (by decide) 0
    { condition := ⟨⟨3⟩, .equal, .boolean true, .fresh⟩, action := ⟨5⟩, baseline := some true }
    (by decide) _ _ _ []
    (List.dropLast_append_getLast (List.cons_ne_nil _ _)).symm).1.mpr ⟨rfl, rfl, rfl, rfl, ?_⟩
  exact ⟨(doorNotice false).current, by decide, .boolean false, .boolean true, by decide⟩

end AccessoryController.ActionEngine
