import AccessoryController.ActionEngine.LevelTrace
import AccessoryController.LocalArgbActions.Handoff

/-!
# The engine drives the lights

An action engine and the LED adapter that is one of its sinks, from the moment at which the
composition root cleared both: it binds outputs, adds rules and attaches, the provider delivers
notices and reads, and the adapter executes the commands of every evaluation in order. The lighting
sink accepts every publication. The last published command shows what the tables hold, and the
tables hold what the level rules remember.

## Main definitions

* `Lighting`, `Lighting.step`: the engine with its adapter
* `Driven polled e action`: a level rule drives the action
* `Remembered e action command`: the level rule of the action remembers the command
* `On e log lights action`: the rule of the action is on at its latest reading
* `Held led s`: the tables agree with the rules, and the last command with the tables

## Main results

* `evaluation`: the level commands of an action on a call are what its rule then remembers
* `held_step`: one call keeps the agreement
* `engine_lighting_fails_dark`: what the last published command shows is on
-/

namespace AccessoryController.LocalArgbActions

open ActionEngine EffectBinding
open LocalArgb hiding Call
open VehicleCore (MonotonicTimestamp)
open VehicleSignals

/-- The engine, the adapter, and the last command that the adapter published, with the epoch of
that execution. -/
structure Lighting where
  engine : Engine := {}
  leds : LedActionSink := {}
  published : Option (LightingCommand × ℕ) := none

/-- The clock and the epoch that the adapter reads in the n-th execution of a call. -/
abbrev Stamps := ℕ → MonotonicTimestamp × ℕ

namespace Lighting

/-- The adapter executes one command, and the sink accepts what it publishes. -/
def execute (s : Lighting) (command : ActionCommand) (stamp : MonotonicTimestamp × ℕ) : Lighting :=
  let recorded := s.leds.record command stamp.1 stamp.2
  { s with
    leds := recorded.1.settle true
    published := (recorded.2.map fun snapshot => (snapshot, stamp.2)).or s.published }

/-- The adapter executes the commands of a call in order. -/
def executeAll (s : Lighting) (commands : List ActionCommand) (stamps : Stamps) : Lighting :=
  commands.zipIdx.foldl (fun s entry => s.execute entry.1 (stamps entry.2)) s

end Lighting

/-- A call of the composition root or of the provider. A configuration is not cleared during its
life. -/
inductive LightingCall
  | bind (registration : Registration)
  | engine (call : Call) (stamps : Stamps)

/-- The call that reaches the engine. -/
def LightingCall.engineCall : LightingCall → Option Call
  | .bind _ => none
  | .engine .clear _ => none
  | .engine call _ => some call

/-- The commands that the adapter, registered as the sink `led`, executes on a call. -/
def ledCommands (catalog : SignalCatalogView) (led : Sink) (e : Engine) (call : Call) :
    List ActionCommand :=
  ((commandsOf catalog (e, call)).flatMap (ActionEngine.execute e.sinks)).filterMap
    fun execution => if execution.1 = led then some execution.2 else none

/-- One call. Outputs are bound while the engine is detached. -/
def Lighting.step (catalog : SignalCatalogView) (led : Sink) (s : Lighting)
    (input : LightingCall) : Lighting × Unit :=
  match input with
  | .bind registration =>
    (if s.engine.attached then s else { s with leds := s.leds.register registration }, ())
  | .engine .clear _ => (s, ())
  | .engine call stamps =>
    ({ s.executeAll (ledCommands catalog led s.engine call) stamps with
        engine := (s.engine.step catalog call).1 }, ())

/-! ### Rules and their memory -/

/-- A level rule drives the action; a polled one is of a kind. -/
def Driven (polled : PolledRule → Prop) (e : Engine) (action : ActionId) : Prop :=
  (∃ rule, Rule.state rule ∈ e.rules ∧ rule.action = action) ∨
    ∃ rule ∈ e.polledRules, rule.action = action ∧ polled rule

/-- The rule switches its action on and off. -/
def Switches : PolledRule → Prop
  | .range _ => False
  | .sampledState _ => True

/-- The level rule of the action remembers the command. -/
def Remembered (e : Engine) (action : ActionId) (command : ActionCommand) : Prop :=
  (∃ rule, Rule.state rule ∈ e.rules ∧ rule.action = action ∧
    rule.remembered = some command) ∨
  ∃ rule ∈ e.polledRules, rule.action = action ∧ rule.remembered = some command

/-- The rule of the action is on at its latest reading since the attachment: the reading is
actionable, and its output is one of the commands that light. -/
def On (e : Engine) (log : Log) (lights : ActionCommand → Prop) (action : ActionId) : Prop :=
  (∃ rule, Rule.state rule ∈ e.rules ∧ rule.action = action ∧
    ∃ reading, (noticesOf rule.signal log).getLast? = some reading ∧
      rule.condition.evaluate reading = some true) ∨
  ∃ (index : ℕ) (rule : PolledRule), e.polledRules[index]? = some rule ∧ rule.action = action ∧
    ∃ read, (readsOf index log).getLast? = some read ∧ ¬ rule.Refuses read ∧
      ∃ command, rule.output (readsOf index log) = some command ∧ lights command

/-! ### The tables -/

variable {command : ActionCommand} {binding : FillBinding} (leds : LedActionSink)

section Tables

/-- The level that a command leaves in an effect binding. -/
def EffectBinding.after (binding : EffectBinding) (command : ActionCommand) : EffectBinding :=
  match onOffLevel command.kind with
  | some active => if binding.action = command.action then { binding with active } else binding
  | none => binding

/-- The level that a command leaves in a fill binding. -/
def FillBinding.after (binding : FillBinding) (command : ActionCommand) : FillBinding :=
  match commandedLevel command with
  | some level => if binding.action = command.action then { binding with level } else binding
  | none => binding

@[simp] theorem EffectBinding.action_after (binding : EffectBinding) (command : ActionCommand) :
    (binding.after command).action = binding.action := by
  unfold after
  split
  · split <;> rfl
  · rfl

@[simp] theorem FillBinding.action_after (binding : FillBinding) (command : ActionCommand) :
    (binding.after command).action = binding.action := by
  unfold FillBinding.after
  split
  · split <;> rfl
  · rfl

theorem EffectBinding.after_other {binding : EffectBinding}
    (other : ¬ (command.action = binding.action ∧ command.kind ≠ .trigger)) :
    binding.after command = binding := by
  unfold after
  split
  · rename_i active hactive
    refine if_neg fun same => other ⟨same.symm, fun trigger => ?_⟩
    rw [trigger] at hactive
    cases hactive
  · rfl

theorem FillBinding.after_other
    (other : ¬ (command.action = binding.action ∧ command.kind ≠ .trigger)) :
    binding.after command = binding := by
  unfold FillBinding.after
  split
  · rename_i level hlevel
    refine if_neg fun same => other ⟨same.symm, fun trigger => ?_⟩
    rw [commandedLevel, trigger] at hlevel
    cases hlevel
  · rfl

section

variable {Binding : Type} {after : Binding → ActionCommand → Binding} {action : Binding → ActionId}
  (keeps : ∀ binding command, action (after binding command) = action binding)
  (commands : List ActionCommand)

include keeps

theorem foldl_keeps (binding : Binding) :
    action (commands.foldl after binding) = action binding := by
  induction commands generalizing binding with
  | nil => rfl
  | cons command commands ih => rw [List.foldl_cons, ih, keeps]

variable (ignores : ∀ binding (command : ActionCommand),
  ¬ (command.action = action binding ∧ command.kind ≠ .trigger) → after binding command = binding)

include ignores

/-- The commands of a call, on a table whose bindings each command visits. -/
theorem executeAll_bindings (table : Lighting → List Binding)
    (visits : ∀ s command stamp, table (Lighting.execute s command stamp) =
      (table s).map (after · command)) (s : Lighting) (stamps : Stamps) :
    table (s.executeAll commands stamps) =
      (table s).map fun binding => (levels (action binding) commands).foldl after binding := by
  have all : ∀ (commands : List ActionCommand) (n : ℕ) (s : Lighting),
      table ((commands.zipIdx n).foldl (fun s entry => s.execute entry.1 (stamps entry.2)) s) =
        (table s).map fun binding => commands.foldl after binding := by
    intro commands
    induction commands with
    | nil => intro n s; exact (List.map_id' _).symm
    | cons command commands ih =>
      intro n s
      rw [List.zipIdx_cons, List.foldl_cons, ih, visits, List.map_map]
      rfl
  refine (all commands 0 s).trans (List.map_congr_left fun binding _ => ?_)
  exact History.foldl_own
    (fun action command => command.action == action && command.kind != .trigger) keeps
    (fun binding command other => ignores binding command (by simpa using other)) commands binding

end

variable (s : Lighting)

theorem execute_effects (command : ActionCommand) (stamp : MonotonicTimestamp × ℕ) :
    (s.execute command stamp).leds.effects.bindings =
      s.leds.effects.bindings.map (·.after command) := by
  unfold Lighting.execute LedActionSink.record LedActionSink.settle after
  cases onOffLevel command.kind with
  | none => exact (List.map_id' _).symm
  | some active => rfl

theorem execute_fills (command : ActionCommand) (stamp : MonotonicTimestamp × ℕ) :
    (s.execute command stamp).leds.fills.bindings =
      s.leds.fills.bindings.map (·.after command) := by
  unfold Lighting.execute LedActionSink.record LedActionSink.settle FillBinding.after
  cases commandedLevel command with
  | none => exact (List.map_id' _).symm
  | some level => rfl

theorem executeAll_effects (commands : List ActionCommand) (stamps : Stamps) :
    (s.executeAll commands stamps).leds.effects.bindings =
      s.leds.effects.bindings.map fun binding =>
        (levels binding.action commands).foldl after binding :=
  executeAll_bindings action_after commands (fun _ _ => after_other)
    (·.leds.effects.bindings) execute_effects s stamps

theorem executeAll_fills (commands : List ActionCommand) (stamps : Stamps) :
    (s.executeAll commands stamps).leds.fills.bindings =
      s.leds.fills.bindings.map fun binding =>
        (levels binding.action commands).foldl FillBinding.after binding :=
  executeAll_bindings FillBinding.action_after commands (fun _ _ => FillBinding.after_other)
    (·.leds.fills.bindings) execute_fills s stamps

end Tables

/-! ### One call of the engine -/

section Evaluation

variable {catalog : SignalCatalogView} {e : Engine} {action : ActionId} {command : ActionCommand}
  {polled : PolledRule → Prop}

/-- A kind of polled rules that no evaluation and no reset changes. -/
structure Kind (polled : PolledRule → Prop) : Prop where
  sample : ∀ rule read, polled rule → polled (rule.onSample read).1
  reset : ∀ rule, polled rule → polled rule.reset

theorem kind_switches : Kind Switches where
  sample rule read switches := by cases rule <;> exact switches
  reset rule switches := by cases rule <;> exact switches

theorem kind_any : Kind fun _ => True := ⟨fun _ _ _ => trivial, fun _ _ => trivial⟩

/-- Rules that were appended leave the driven actions driven. -/
theorem Driven.of_prefix {e' : Engine} (driven : Driven polled e action)
    (rules : ∀ rule ∈ e.rules, rule ∈ e'.rules)
    (polledRules : ∀ rule ∈ e.polledRules, rule ∈ e'.polledRules) : Driven polled e' action := by
  rcases driven with ⟨rule, hrule, haction⟩ | ⟨rule, hrule, haction, hkind⟩
  · exact Or.inl ⟨rule, rules _ hrule, haction⟩
  · exact Or.inr ⟨rule, polledRules _ hrule, haction, hkind⟩

theorem Driven.addRule (driven : Driven polled e action) (rule : Rule) :
    Driven polled (e.addRule rule).1 action := by
  unfold Engine.addRule
  split
  · exact driven
  · exact driven.of_prefix (fun _ h => List.mem_append_left _ h) fun _ h => h

theorem Driven.addPolledRule (driven : Driven polled e action) (rule : PolledRule) :
    Driven polled (e.addPolledRule rule).1 action := by
  unfold Engine.addPolledRule
  split
  · exact driven
  · exact driven.of_prefix (fun _ h => h) fun _ h => List.mem_append_left _ h

theorem Driven.resetRules (kind : Kind polled) (driven : Driven polled e action) :
    Driven polled e.resetRules action := by
  rcases driven with ⟨rule, hrule, haction⟩ | ⟨rule, hrule, haction, hkind⟩
  · exact Or.inl ⟨rule.reset, List.mem_map.mpr ⟨_, hrule, rfl⟩, haction⟩
  · exact Or.inr ⟨rule.reset, List.mem_map_of_mem hrule, (PolledRule.action_reset rule).trans
      haction, kind.reset rule hkind⟩

theorem Driven.notice (driven : Driven polled e action) (n : SignalNotification) :
    Driven polled (e.notice n).1 action := by
  rcases driven with ⟨rule, hrule, haction⟩ | ⟨rule, hrule, haction, hkind⟩
  · obtain ⟨rule', hrule', hsame, -⟩ := emits_onNotice_rule rule n
    exact Or.inl ⟨rule', List.mem_map.mpr ⟨_, hrule, hrule'⟩, hsame.trans haction⟩
  · exact Or.inr ⟨rule, hrule, haction, hkind⟩

theorem Driven.sampleNext (kind : Kind polled) (driven : Driven polled e action) (read : Read) :
    Driven polled (e.sampleNext read).1 action := by
  unfold Engine.sampleNext
  split
  · exact driven
  split
  · exact driven
  · rename_i index hindex _ sampled hsampled
    rcases driven with ⟨rule, hrule, haction⟩ | ⟨rule, hrule, haction, hkind⟩
    · exact Or.inl ⟨rule, hrule, haction⟩
    · obtain ⟨place, hplace⟩ := List.mem_iff_getElem?.mp hrule
      by_cases same : index = place
      · subst same
        obtain rfl := Option.some.inj (hsampled.symm.trans hplace)
        refine Or.inr ⟨(sampled.onSample read).1, ?_, ?_, kind.sample sampled read hkind⟩
        · exact List.mem_set (List.getElem?_eq_some_iff.mp hsampled).1 _
        · rw [PolledRule.action_onSample, haction]
      · refine Or.inr ⟨rule, List.mem_iff_getElem?.mpr ⟨place, ?_⟩, haction, hkind⟩
        rw [List.getElem?_set_ne same, hplace]

/-- **Every call** but a clear keeps the actions driven. -/
theorem driven_step (kind : Kind polled) (driven : Driven polled e action) {call : Call}
    (kept : call ≠ .clear) : Driven polled (e.step catalog call).1 action := by
  cases call with
  | clear => exact absurd rfl kept
  | addSink sink =>
    change Driven polled (e.addSink sink).1 action
    unfold Engine.addSink
    repeat' split
    all_goals exact driven
  | addStateRule config =>
    change Driven polled (Engine.addStateRule catalog e config).1 action
    unfold Engine.addStateRule
    split
    · exact driven
    · exact driven.addRule _
  | addEventRule config =>
    change Driven polled (Engine.addEventRule catalog e config).1 action
    unfold Engine.addEventRule
    split
    · exact driven
    · exact driven.addRule _
  | addRangeRule config =>
    change Driven polled (Engine.addRangeRule catalog e config).1 action
    unfold Engine.addRangeRule
    split
    · exact driven
    split
    · exact driven
    · exact driven.addPolledRule _
  | addSampledStateRule config =>
    change Driven polled (Engine.addSampledStateRule catalog e config).1 action
    unfold Engine.addSampledStateRule
    repeat' split
    all_goals first
      | exact driven
      | exact driven.addPolledRule _
  | attach answers =>
    change Driven polled (e.attach answers).1 action
    have reset := driven.resetRules kind
    unfold Engine.attach
    split
    · exact driven
    · split <;> exact reset.of_prefix (fun _ h => h) fun _ h => h
  | detach answers =>
    change Driven polled (e.detach answers).1 action
    unfold Engine.detach
    split <;> exact driven
  | notice n => exact driven.notice n
  | samplePolledRules =>
    change Driven polled e.samplePolledRules.1 action
    unfold Engine.samplePolledRules
    split <;> exact driven
  | sampleNext read => exact driven.sampleNext kind read

/-- **The level commands of an action** on a call are none or one, and its rule sends it; only a
rule that switches activates. -/
theorem levels_commandsOf (wellFormed : WellFormed e) (call : Call) (action : ActionId) :
    levels action (commandsOf catalog (e, call)) = [] ∨
    ∃ command, levels action (commandsOf catalog (e, call)) = [command] ∧
      Driven (fun _ => True) e action ∧
      (command.kind = .activate → Driven Switches e action) := by
  have silent : commandsOf catalog (e, call) = [] →
      levels action (commandsOf catalog (e, call)) = [] := fun none => by
    rw [none]
    rfl
  cases call with
  | notice n =>
    obtain ⟨hrules, -, -⟩ := List.nodup_append.mp wellFormed.owners
    by_cases owned : ∃ rule, Rule.state rule ∈ e.rules ∧ rule.action = action
    · obtain ⟨rule, hrule, rfl⟩ := owned
      have own : levels rule.action (commandsOf catalog (e, .notice n)) =
          ((Rule.state rule).onNotice n).2.toList := levels_notice hrules hrule n
      rw [own]
      cases ((Rule.state rule).onNotice n).2 with
      | none => exact Or.inl rfl
      | some command =>
        exact Or.inr ⟨command, rfl, Or.inl ⟨rule, hrule, rfl⟩, fun _ => Or.inl ⟨rule, hrule, rfl⟩⟩
    · refine Or.inl (levels_notice_of_not_driven (fun rule hrule heq => ?_) n)
      cases rule with
      | state rule => exact owned ⟨rule, hrule, Option.some.inj heq⟩
      | event rule => cases heq
  | sampleNext read =>
    change levels action (e.sampleNext read).2 = [] ∨ ∃ command,
      levels action (e.sampleNext read).2 = [command] ∧ _
    unfold Engine.sampleNext
    split
    · exact Or.inl rfl
    split
    · exact Or.inl rfl
    · rename_i index hindex _ rule hrule
      have emits := rule.emits_onSample read
      have hmem : rule ∈ e.polledRules := List.mem_of_getElem? hrule
      by_cases owner : rule.action = action
      · subst owner
        rw [levels_of_owner emits.level]
        cases hemission : (rule.onSample read).2 with
        | none => exact Or.inl rfl
        | some command =>
          refine Or.inr ⟨command, rfl, Or.inr ⟨rule, hmem, rfl, trivial⟩, fun activates => ?_⟩
          refine Or.inr ⟨rule, hmem, rfl, ?_⟩
          cases rule with
          | sampledState rule => trivial
          | range rule =>
            -- a range rule sets levels and deactivates
            change (rule.onSample read).2 = some command at hemission
            unfold RangeRule.onSample at hemission
            dsimp only at hemission
            split at hemission
            · cases hemission
            · rw [← Option.some.inj hemission] at activates
              unfold RangeRule.commandFor at activates
              split at activates <;> cases activates
      · refine Or.inl (levels_eq_nil fun command hcommand haction => absurd ?_ owner)
        rw [← (emits.level command (Option.mem_toList.mp hcommand)).1]
        exact haction
  | _ => exact Or.inl (silent rfl)

/-- What a rule remembers after an evaluation is the level command that it sent, or what it
remembered before if it sent none. -/
theorem remembered_of_emits
    {rule : ActionId} {remembered emitted remembered' : Option ActionCommand}
    {mayRepeat : Prop} (emits : Emits rule remembered emitted remembered' mayRepeat)
    (now : remembered' = some command) :
    (emitted.toList = [] ∧ remembered = some command) ∨ emitted.toList = [command] := by
  rw [emits.remembers] at now
  cases emitted with
  | none => exact Or.inl ⟨rfl, now⟩
  | some sent =>
    obtain rfl := Option.some.inj now
    exact Or.inr rfl

/-- The memory of the rules after a reset. -/
theorem not_remembered_reset {e' : Engine} (rules : e'.rules = e.rules.map Rule.reset)
    (polledRules : e'.polledRules = e.polledRules.map PolledRule.reset) :
    ¬ Remembered e' action command := by
  rintro (⟨rule, hrule, -, hremembered⟩ | ⟨rule, hrule, -, hremembered⟩)
  · rw [rules] at hrule
    obtain ⟨origin, -, horigin⟩ := List.mem_map.mp hrule
    cases origin with
    | state origin =>
      obtain rfl := Rule.state.inj horigin
      cases hremembered
    | event origin => cases horigin
  · rw [polledRules] at hrule
    obtain ⟨origin, -, rfl⟩ := List.mem_map.mp hrule
    cases origin <;> cases hremembered

/-- The memory of a notice. -/
theorem remembered_notice (wellFormed : WellFormed e) (n : SignalNotification)
    (remembers : Remembered (e.notice n).1 action command) :
    (levels action (commandsOf catalog (e, .notice n)) = [] ∧ Remembered e action command) ∨
      levels action (commandsOf catalog (e, .notice n)) = [command] := by
  obtain ⟨hrules, -, hdisjoint⟩ := List.nodup_append.mp wellFormed.owners
  rcases remembers with ⟨rule', hrule', rfl, hremembered⟩ | ⟨rule, hrule, rfl, hremembered⟩
  · obtain ⟨origin, horigin, heq⟩ := List.mem_map.mp hrule'
    cases origin with
    | event rule =>
      unfold Rule.onNotice at heq
      split at heq <;> cases heq
    | state rule =>
      obtain ⟨rule'', hrule'', haction, -, -, emits, -⟩ := emits_onNotice_rule rule n
      obtain rfl := Rule.state.inj (hrule''.symm.trans heq)
      have own : levels rule.action (commandsOf catalog (e, .notice n)) =
          ((Rule.state rule).onNotice n).2.toList := levels_notice hrules horigin n
      rw [haction, own]
      refine (remembered_of_emits emits hremembered).imp_left fun ⟨silent, before⟩ => ?_
      exact ⟨silent, Or.inl ⟨rule, horigin, rfl, before⟩⟩
  · refine Or.inl ⟨levels_notice_of_not_driven (fun rule' hrule' heq => ?_) n,
      Or.inr ⟨rule, hrule, rfl, hremembered⟩⟩
    exact hdisjoint rule.action (List.mem_filterMap.mpr ⟨rule', hrule', heq⟩) rule.action
      (List.mem_map_of_mem hrule) rfl

/-- The memory of a read. -/
theorem remembered_sampleNext (wellFormed : WellFormed e) (read : Read)
    (remembers : Remembered (e.sampleNext read).1 action command) :
    (levels action (e.sampleNext read).2 = [] ∧ Remembered e action command) ∨
      levels action (e.sampleNext read).2 = [command] := by
  obtain ⟨-, hpolled, hdisjoint⟩ := List.nodup_append.mp wellFormed.owners
  unfold Engine.sampleNext at remembers ⊢
  split at remembers
  · exact Or.inl ⟨rfl, remembers⟩
  rename_i index hindex
  cases hrule : e.polledRules[index]? with
  | none =>
    rw [hrule] at remembers
    exact Or.inl ⟨rfl, remembers⟩
  | some rule =>
    rw [hrule] at remembers
    have emits := rule.emits_onSample read
    have hmem : rule ∈ e.polledRules := List.mem_of_getElem? hrule
    have silent : action ≠ rule.action → levels action (rule.onSample read).2.toList = [] := by
      refine fun other => levels_eq_nil fun command hcommand haction => absurd ?_ other
      rw [← haction, (emits.level command (Option.mem_toList.mp hcommand)).1]
    rcases remembers with ⟨state, hstate, haction, hremembered⟩ |
      ⟨rule', hrule', haction, hremembered⟩
    · refine Or.inl ⟨silent fun same => ?_, Or.inl ⟨state, hstate, haction, hremembered⟩⟩
      -- a state rule and a polled rule drive different actions
      refine hdisjoint action (List.mem_filterMap.mpr ⟨_, hstate, ?_⟩) action ?_ rfl
      · exact congrArg some haction
      · rw [same]
        exact List.mem_map_of_mem hmem
    · obtain ⟨place, hplace⟩ := List.mem_iff_getElem?.mp hrule'
      by_cases same : index = place
      · subst same
        rw [List.getElem?_set_self (List.getElem?_eq_some_iff.mp hrule).1] at hplace
        obtain rfl := Option.some.inj hplace
        rw [PolledRule.action_onSample] at haction
        subst haction
        rw [levels_of_owner emits.level]
        refine (remembered_of_emits emits hremembered).imp_left fun ⟨unsent, before⟩ => ?_
        exact ⟨unsent, Or.inr ⟨rule, hmem, rfl, before⟩⟩
      · rw [List.getElem?_set_ne same] at hplace
        refine Or.inl ⟨silent fun driven => same ?_,
          Or.inr ⟨rule', List.mem_of_getElem? hplace, haction, hremembered⟩⟩
        -- two polled rules that drive one action are at one index
        refine (List.getElem?_inj (i := index) (j := place) ?_ hpolled).mp ?_
        · rw [List.length_map]
          exact (List.getElem?_eq_some_iff.mp hrule).1
        · rw [List.getElem?_map, List.getElem?_map, hrule, hplace]
          exact congrArg some (driven.symm.trans haction.symm)

/-- **What an attached engine remembers** of an action after a call is the level command of the
call, or what it remembered before if there was none. -/
theorem evaluation (wellFormed : WellFormed e) {call : Call}
    (attached : (e.step catalog call).1.attached = true)
    (remembers : Remembered (e.step catalog call).1 action command) :
    e.attached = true ∧
      ((levels action (commandsOf catalog (e, call)) = [] ∧ Remembered e action command) ∨
        levels action (commandsOf catalog (e, call)) = [command]) := by
  have before : e.attached = true := by
    by_contra detached
    rw [Bool.not_eq_true] at detached
    by_cases hattach : ∃ answers, call = .attach answers
    · obtain ⟨answers, rfl⟩ := hattach
      obtain ⟨rules, polledRules⟩ := attach_of_detached detached answers
      exact not_remembered_reset rules polledRules remembers
    · have still := @attached_step _ catalog _ detached fun answers heq => hattach ⟨answers, heq⟩
      rw [still] at attached
      cases attached
  refine ⟨before, ?_⟩
  have refused : ∀ {result : Engine × ConfigStatus}, Configured e result →
      Remembered result.1 action command → Remembered e action command := by
    intro result configured remembers
    rwa [configured.of_attached before] at remembers
  cases call with
  | notice n => exact remembered_notice wellFormed n remembers
  | sampleNext read => exact remembered_sampleNext wellFormed read remembers
  | addSink sink => exact Or.inl ⟨rfl, refused (configured_addSink sink) remembers⟩
  | clear => exact Or.inl ⟨rfl, refused configured_clear remembers⟩
  | addStateRule config =>
    exact Or.inl ⟨rfl, refused (configured_addStateRule config) remembers⟩
  | addEventRule config =>
    exact Or.inl ⟨rfl, refused (configured_addEventRule config) remembers⟩
  | addRangeRule config =>
    exact Or.inl ⟨rfl, refused (configured_addRangeRule config) remembers⟩
  | addSampledStateRule config =>
    exact Or.inl ⟨rfl, refused (configured_addSampledStateRule config) remembers⟩
  | attach answers =>
    have same : (e.step catalog (.attach answers)).1 = e := by
      simp [Engine.step, Engine.attach, before]
    rw [same] at remembers
    exact Or.inl ⟨rfl, remembers⟩
  | detach answers =>
    refine Or.inl ⟨rfl, ?_⟩
    change Remembered (e.detach answers).1 action command at remembers
    unfold Engine.detach at remembers
    split at remembers <;> exact remembers
  | samplePolledRules =>
    refine Or.inl ⟨rfl, ?_⟩
    change Remembered e.samplePolledRules.1 action command at remembers
    unfold Engine.samplePolledRules at remembers
    split at remembers <;> exact remembers

end Evaluation

/-! ### The agreement of the tables -/

/-- What the last published command shows, by the tables. -/
structure Shows (leds : LedActionSink) (command : LightingCommand) (epoch : ℕ) : Prop where
  leftTurn : command.leftTurn = true → EffectBindings.lights leds.effects .leftTurn = true
  rightTurn : command.rightTurn = true → EffectBindings.lights leds.effects .rightTurn = true
  brake : command.brake = true → EffectBindings.lights leds.effects .brake = true
  fills : ∀ fill ∈ command.fills.fills, ∃ binding ∈ leds.fills.bindings,
    ¬ binding.level.same .empty ∧ fill = ⟨binding.effect.zone, binding.level,
      binding.effect.color, binding.effect.priority⟩
  actionable : command.actionable = true → command.leftTurn = true ∨ command.rightTurn = true ∨
    command.brake = true ∨ command.fills.fills ≠ [] ∨ command.transients.starts ≠ []
  current : ∀ start ∈ command.transients.starts, start.epoch = epoch

/-- The tables agree with the rules, and the last command with the tables: only driven actions are
lit; and in an attached engine that the adapter is a sink of, a binding has the level that the rule
of its action remembers. -/
structure Held (led : Sink) (s : Lighting) : Prop where
  wellFormed : WellFormed s.engine
  active : ∀ binding ∈ s.leds.effects.bindings, binding.active = true →
    Driven Switches s.engine binding.action
  filled : ∀ binding ∈ s.leds.fills.bindings, ¬ binding.level.same .empty →
    Driven (fun _ => True) s.engine binding.action
  effects : s.engine.attached = true → led ∈ s.engine.sinks →
    ∀ binding ∈ s.leds.effects.bindings, ∀ command,
      Remembered s.engine binding.action command →
        ∀ active, onOffLevel command.kind = some active → binding.active = active
  fills : s.engine.attached = true → led ∈ s.engine.sinks →
    ∀ binding ∈ s.leds.fills.bindings, ∀ command,
      Remembered s.engine binding.action command →
        ∀ level, commandedLevel command = some level → binding.level = level
  published : ∀ command epoch, s.published = some (command, epoch) →
    Shows s.leds command epoch

section Publications

/-- A fill of a list that another one was appended to. -/
theorem mem_addFill {list : LightingFills} {fill other : LightingFill}
    (h : fill ∈ (list.add other).1.fills) : fill ∈ list.fills ∨ fill = other := by
  unfold LightingFills.add at h
  split at h
  · exact Or.inl h
  · rcases List.mem_append.mp h with h | h
    · exact Or.inl h
    · exact Or.inr (List.mem_singleton.mp h)

/-- The lit fills are those of bindings that are not empty. -/
theorem mem_lit {table : FillBindings} {fill : LightingFill} (h : fill ∈ table.lit.fills) :
    ∃ binding ∈ table.bindings, ¬ binding.level.same .empty ∧
      fill = ⟨binding.effect.zone, binding.level, binding.effect.color,
        binding.effect.priority⟩ := by
  have all : ∀ (bindings : List FillBinding) (fills : LightingFills),
      fill ∈ (bindings.foldl (fun (fills : LightingFills) binding =>
        if binding.level.same .empty then fills
        else (fills.add ⟨binding.effect.zone, binding.level, binding.effect.color,
          binding.effect.priority⟩).1) fills).fills →
      fill ∈ fills.fills ∨ ∃ binding ∈ bindings, ¬ binding.level.same .empty ∧
        fill = ⟨binding.effect.zone, binding.level, binding.effect.color,
          binding.effect.priority⟩ := by
    intro bindings
    induction bindings with
    | nil => exact fun fills h => Or.inl h
    | cons binding bindings ih =>
      intro fills h
      rw [List.foldl_cons] at h
      rcases ih _ h with h | ⟨found, hfound, facts⟩
      · split at h
        · exact Or.inl h
        · rename_i nonempty
          rcases mem_addFill h with h | rfl
          · exact Or.inl h
          · exact Or.inr ⟨binding, List.mem_cons_self, nonempty, rfl⟩
      · exact Or.inr ⟨found, List.mem_cons_of_mem _ hfound, facts⟩
  rcases all _ _ h with h | found
  · cases h
  · exact found

/-- The command of the tables shows them. -/
theorem shows_heldCommand (epoch : ℕ) :
    Shows leds (heldCommand leds.effects leds.fills leds.transients epoch) epoch where
  leftTurn lit := lit
  rightTurn lit := lit
  brake lit := lit
  fills _ hfill := mem_lit hfill
  actionable actionable := by
    have split : ((EffectBindings.lit leds.effects).any ||
        !(FillBindings.lit leds.fills).fills.isEmpty ||
        !(TransientBindings.latest leds.transients epoch).starts.isEmpty) = true := actionable
    simp only [LedEffects.any, Bool.or_eq_true, Bool.not_eq_true', List.isEmpty_eq_false_iff]
      at split
    rcases split with (((left | right) | brake) | fills) | starts
    · exact Or.inl left
    · exact Or.inr (Or.inl right)
    · exact Or.inr (Or.inr (Or.inl brake))
    · exact Or.inr (Or.inr (Or.inr (Or.inl fills)))
    · exact Or.inr (Or.inr (Or.inr (Or.inr starts)))
  current start hstart := by
    obtain ⟨index, binding, -, -, hepoch, rfl⟩ := TransientBindings.mem_latest hstart
    exact hepoch

/-- The command shows no more when bindings are added. -/
theorem Shows.of_subset {leds leds' : LedActionSink} {command : LightingCommand} {epoch : ℕ}
    (shows : Shows leds command epoch)
    (effects : ∀ binding ∈ leds.effects.bindings, binding ∈ leds'.effects.bindings)
    (fills : ∀ binding ∈ leds.fills.bindings, binding ∈ leds'.fills.bindings) :
    Shows leds' command epoch := by
  have lights : ∀ effect, EffectBindings.lights leds.effects effect = true →
      EffectBindings.lights leds'.effects effect = true := by
    intro effect lit
    obtain ⟨binding, hbinding, hlit⟩ := List.any_eq_true.mp lit
    exact List.any_eq_true.mpr ⟨binding, effects binding hbinding, hlit⟩
  refine ⟨fun lit => lights _ (shows.leftTurn lit), fun lit => lights _ (shows.rightTurn lit),
    fun lit => lights _ (shows.brake lit), fun fill hfill => ?_, shows.actionable, shows.current⟩
  obtain ⟨binding, hbinding, facts⟩ := shows.fills fill hfill
  exact ⟨binding, fills binding hbinding, facts⟩

/-- An execution publishes what the tables hold then, or nothing is bound to its action and no
level changes. -/
theorem record_cases (command : ActionCommand) (nowUs : MonotonicTimestamp) (epoch : ℕ) :
    (leds.record command nowUs epoch).2 = some (heldCommand
        (leds.record command nowUs epoch).1.effects (leds.record command nowUs epoch).1.fills
        (leds.record command nowUs epoch).1.transients epoch) ∨
      ((leds.record command nowUs epoch).2 = none ∧
        (leds.record command nowUs epoch).1.effects = leds.effects ∧
        (leds.record command nowUs epoch).1.fills = leds.fills) := by
  cases hpublishes : (leds.record command nowUs epoch).2 with
  | some snapshot =>
    unfold LedActionSink.record at hpublishes ⊢
    rw [Option.ite_none_right_eq_some] at hpublishes
    exact Or.inl hpublishes.2.symm
  | none =>
    unfold LedActionSink.record at hpublishes ⊢
    have unbound := Bool.eq_false_iff.mpr fun bound =>
      Option.some_ne_none _ (ite_eq_right_iff.mp hpublishes bound)
    obtain ⟨hboth, -⟩ := Bool.or_eq_false_iff.mp unbound
    obtain ⟨heffects, hfills⟩ := Bool.or_eq_false_iff.mp hboth
    refine Or.inr ⟨rfl, ?_, ?_⟩
    · cases hactive : onOffLevel command.kind with
      | none => rfl
      | some active =>
        rw [hactive] at heffects
        exact Table.hold_unbound heffects
    · cases hlevel : commandedLevel command with
      | none => rfl
      | some level =>
        rw [hlevel] at hfills
        exact Table.hold_unbound hfills

section

variable {s : Lighting}
  (published : ∀ command epoch, s.published = some (command, epoch) → Shows s.leds command epoch)
include published

/-- One execution keeps the last command within the tables. -/
theorem shows_execute (command : ActionCommand) (stamp : MonotonicTimestamp × ℕ) :
    ∀ shown epoch, (s.execute command stamp).published = some (shown, epoch) →
      Shows (s.execute command stamp).leds shown epoch := by
  intro shown epoch last
  change Shows (s.leds.record command stamp.1 stamp.2).1 shown epoch
  change ((s.leds.record command stamp.1 stamp.2).2.map fun snapshot =>
    (snapshot, stamp.2)).or s.published = some (shown, epoch) at last
  rcases record_cases s.leds command stamp.1 stamp.2 with hsome | ⟨hnone, heffects, hfills⟩
  · rw [hsome] at last
    obtain ⟨rfl, rfl⟩ := Prod.mk.inj (Option.some.inj last)
    exact shows_heldCommand _ _
  · rw [hnone] at last
    refine (published shown epoch last).of_subset ?_ ?_
    · rw [heffects]
      exact fun _ h => h
    · rw [hfills]
      exact fun _ h => h

theorem shows_executeAll (commands : List ActionCommand) (stamps : Stamps) :
    ∀ shown epoch, (s.executeAll commands stamps).published = some (shown, epoch) →
      Shows (s.executeAll commands stamps).leds shown epoch := by
  refine List.foldlRecOn _ _ (motive := fun s : Lighting =>
    ∀ shown epoch, s.published = some (shown, epoch) → Shows s.leds shown epoch) published ?_
  intro s published entry _
  exact shows_execute published entry.1 (stamps entry.2)

end

end Publications

section Steps

variable {catalog : SignalCatalogView} {led : Sink} {s : Lighting}

/-- The commands that the adapter executes are those of the rules, or it is not registered. -/
theorem ledCommands_cases (wellFormed : WellFormed s.engine) (call : Call) :
    (led ∈ s.engine.sinks ∧ ledCommands catalog led s.engine call =
      commandsOf catalog (s.engine, call)) ∨
    (led ∉ s.engine.sinks ∧ ledCommands catalog led s.engine call = []) := by
  by_cases registered : led ∈ s.engine.sinks
  · exact Or.inl ⟨registered, executions_registered wellFormed.sinks registered _⟩
  · exact Or.inr ⟨registered, executions_unregistered registered _⟩

/-- What the adapter executes for an action is one level command of its rule, or none. -/
theorem levels_ledCommands (wellFormed : WellFormed s.engine) (call : Call) (action : ActionId) :
    levels action (ledCommands catalog led s.engine call) = [] ∨
    ∃ command, levels action (ledCommands catalog led s.engine call) = [command] ∧
      Driven (fun _ => True) s.engine action ∧
      (command.kind = .activate → Driven Switches s.engine action) := by
  rcases @ledCommands_cases catalog led s wellFormed call with ⟨-, hall⟩ | ⟨-, hnone⟩
  · rw [hall]
    exact levels_commandsOf wellFormed call action
  · rw [hnone]
    exact Or.inl rfl

/-- A level command that an action has is one of that action. -/
theorem action_of_levels {action : ActionId} {commands : List ActionCommand}
    (one : levels action commands = [command]) : command.action = action := by
  have hmem : command ∈ levels action commands := by
    rw [one]
    exact List.mem_singleton_self _
  have level := (List.mem_filter.mp hmem).2
  simp only [Bool.and_eq_true, beq_iff_eq] at level
  exact level.1

/-- An effect binding follows the on/off commands of its action. -/
theorem EffectBinding.active_after
    {binding : EffectBinding} (own : command.action = binding.action) :
    (binding.after command).active = (onOffLevel command.kind).getD binding.active := by
  unfold after
  split
  · rename_i active hactive
    rw [if_pos own.symm, hactive]
    rfl
  · rename_i hnone
    rw [hnone]
    rfl

/-- A fill binding follows the level commands of its action. -/
theorem FillBinding.level_after (own : command.action = binding.action) :
    (binding.after command).level = (commandedLevel command).getD binding.level := by
  unfold FillBinding.after
  split
  · rename_i level hlevel
    rw [if_pos own.symm, hlevel]
    rfl
  · rename_i hnone
    rw [hnone]
    rfl

/-- An attached engine keeps its sinks. -/
theorem sinks_step {e : Engine} (attached : e.attached = true) (call : Call) :
    (e.step catalog call).1.sinks = e.sinks := by
  have refused : ∀ {result : Engine × ConfigStatus}, Configured e result →
      result.1.sinks = e.sinks := fun configured => by rw [configured.of_attached attached]
  cases call with
  | addSink sink => exact refused (configured_addSink sink)
  | clear => exact refused configured_clear
  | addStateRule config => exact refused (configured_addStateRule config)
  | addEventRule config => exact refused (configured_addEventRule config)
  | addRangeRule config => exact refused (configured_addRangeRule config)
  | addSampledStateRule config => exact refused (configured_addSampledStateRule config)
  | attach answers => simp [Engine.step, Engine.attach, attached]
  | detach answers =>
    change (e.detach answers).1.sinks = e.sinks
    unfold Engine.detach
    split <;> rfl
  | notice n => rfl
  | samplePolledRules =>
    change e.samplePolledRules.1.sinks = e.sinks
    unfold Engine.samplePolledRules
    split <;> rfl
  | sampleNext read =>
    change (e.sampleNext read).1.sinks = e.sinks
    unfold Engine.sampleNext
    split
    · rfl
    · split <;> rfl

/-- What an attached engine remembers of an action, a registered sink was told last. -/
theorem ledCommands_evaluation (wellFormed : WellFormed s.engine) {call : Call} {action : ActionId}
    (attached : (s.engine.step catalog call).1.attached = true)
    (registered : led ∈ (s.engine.step catalog call).1.sinks)
    (remembers : Remembered (s.engine.step catalog call).1 action command) :
    (s.engine.attached = true ∧ led ∈ s.engine.sinks ∧
        levels action (ledCommands catalog led s.engine call) = [] ∧
        Remembered s.engine action command) ∨
      levels action (ledCommands catalog led s.engine call) = [command] := by
  obtain ⟨before, hmemory⟩ := evaluation wellFormed attached remembers
  have registeredBefore : led ∈ s.engine.sinks := (sinks_step before call) ▸ registered
  rw [ledCommands, executions_registered wellFormed.sinks registeredBefore]
  exact hmemory.imp_left fun none => ⟨before, registeredBefore, none⟩

/-- **A call of the engine** keeps the agreement. -/
theorem held_engine (held : Held led s) {call : Call} (kept : call ≠ .clear) (stamps : Stamps) :
    Held led { s.executeAll (ledCommands catalog led s.engine call) stamps with
      engine := (s.engine.step catalog call).1 } := by
  refine
    { wellFormed := wellFormed_step catalog held.wellFormed call
      active := fun binding' hbinding active => ?_
      filled := fun binding' hbinding nonempty => ?_
      effects := fun attached registered binding' hbinding command remembers active hactive => ?_
      fills := fun attached registered binding' hbinding command remembers level hlevel => ?_
      published := shows_executeAll held.published _ stamps }
  · change binding' ∈ (s.executeAll _ stamps).leds.effects.bindings at hbinding
    rw [executeAll_effects] at hbinding
    obtain ⟨binding, horigin, rfl⟩ := List.mem_map.mp hbinding
    rw [foldl_keeps action_after]
    rcases @levels_ledCommands catalog led s held.wellFormed call binding.action with
      hnone | ⟨command, hone, -, activates⟩
    · rw [hnone] at active
      exact driven_step kind_switches (held.active binding horigin active) kept
    · rw [hone, List.foldl_cons, List.foldl_nil,
        active_after (action_of_levels hone)] at active
      refine driven_step kind_switches ?_ kept
      cases hkind : command.kind with
      | activate => exact activates hkind
      | deactivate =>
        rw [hkind] at active
        cases active
      | trigger =>
        rw [hkind] at active
        exact held.active binding horigin active
      | setLevel =>
        rw [hkind] at active
        exact held.active binding horigin active
  · change binding' ∈ (s.executeAll _ stamps).leds.fills.bindings at hbinding
    rw [executeAll_fills] at hbinding
    obtain ⟨binding, horigin, rfl⟩ := List.mem_map.mp hbinding
    rw [foldl_keeps FillBinding.action_after]
    rcases @levels_ledCommands catalog led s held.wellFormed call binding.action with
      hnone | ⟨command, -, driven, -⟩
    · rw [hnone] at nonempty
      exact driven_step kind_any (held.filled binding horigin nonempty) kept
    · exact driven_step kind_any driven kept
  · change binding' ∈ (s.executeAll _ stamps).leds.effects.bindings at hbinding
    rw [executeAll_effects] at hbinding
    obtain ⟨binding, horigin, rfl⟩ := List.mem_map.mp hbinding
    rw [foldl_keeps action_after] at remembers
    rcases ledCommands_evaluation held.wellFormed attached registered remembers with
      ⟨before, registeredBefore, hnone, was⟩ | hone
    · rw [hnone]
      exact held.effects before registeredBefore binding horigin command was active hactive
    · rw [hone, List.foldl_cons, List.foldl_nil,
        active_after (action_of_levels hone), hactive]
      rfl
  · change binding' ∈ (s.executeAll _ stamps).leds.fills.bindings at hbinding
    rw [executeAll_fills] at hbinding
    obtain ⟨binding, horigin, rfl⟩ := List.mem_map.mp hbinding
    rw [foldl_keeps FillBinding.action_after] at remembers
    rcases ledCommands_evaluation held.wellFormed attached registered remembers with
      ⟨before, registeredBefore, hnone, was⟩ | hone
    · rw [hnone]
      exact held.fills before registeredBefore binding horigin command was level hlevel
    · rw [hone, List.foldl_cons, List.foldl_nil,
        FillBinding.level_after (action_of_levels hone), hlevel]
      rfl

/-- A binding that is registered is dark. -/
theorem register_bindings (registration : Registration) :
    ((leds.register registration).effects.bindings = leds.effects.bindings ∨
      ∃ binding : EffectBinding, binding.active = false ∧
        (leds.register registration).effects.bindings = leds.effects.bindings ++ [binding]) ∧
    ((leds.register registration).fills.bindings = leds.fills.bindings ∨
      ∃ binding : FillBinding, binding.level = .empty ∧
        (leds.register registration).fills.bindings = leds.fills.bindings ++ [binding]) := by
  cases registration with
  | effect action effect priority =>
    refine ⟨?_, Or.inl rfl⟩
    refine (Table.bindings_bind leds.effects action false (·.drives action effect)
      ⟨action, effect, priority, false⟩).imp_right fun appended => ?_
    exact ⟨_, rfl, appended⟩
  | fill action effect =>
    refine ⟨Or.inl rfl, ?_⟩
    refine (Table.bindings_bind leds.fills action false (·.drives action effect.zone)
      ⟨action, effect, .empty⟩).imp_right fun appended => ?_
    exact ⟨_, rfl, appended⟩
  | transient action effect pixelCount => exact ⟨Or.inl rfl, Or.inl rfl⟩

/-- **A registration** on a detached engine keeps the agreement. -/
theorem held_register (held : Held led s) (detached : s.engine.attached = false)
    (registration : Registration) :
    Held led { s with leds := s.leds.register registration } := by
  obtain ⟨heffects, hfills⟩ := register_bindings s.leds registration
  have attached_absurd : ∀ {P : Prop}, s.engine.attached = true → P := by
    intro P attached
    rw [detached] at attached
    cases attached
  refine
    { wellFormed := held.wellFormed
      active := fun binding hbinding active => ?_
      filled := fun binding hbinding nonempty => ?_
      effects := fun attached => attached_absurd attached
      fills := fun attached => attached_absurd attached
      published := fun command epoch last =>
        (held.published command epoch last).of_subset (fun binding hbinding => ?_)
          fun binding hbinding => ?_ }
  · rcases heffects with hsame | ⟨new, inactive, happended⟩
    · exact held.active binding (hsame ▸ hbinding) active
    · rcases List.mem_append.mp (happended ▸ hbinding) with old | added
      · exact held.active binding old active
      · rw [List.mem_singleton.mp added, inactive] at active
        cases active
  · rcases hfills with hsame | ⟨new, hempty, happended⟩
    · exact held.filled binding (hsame ▸ hbinding) nonempty
    · rcases List.mem_append.mp (happended ▸ hbinding) with old | added
      · exact held.filled binding old nonempty
      · rw [List.mem_singleton.mp added, hempty] at nonempty
        exact absurd rfl nonempty
  · change binding ∈ (s.leds.register registration).effects.bindings
    rcases heffects with hsame | ⟨new, -, happended⟩
    · rw [hsame]
      exact hbinding
    · rw [happended]
      exact List.mem_append_left _ hbinding
  · change binding ∈ (s.leds.register registration).fills.bindings
    rcases hfills with hsame | ⟨new, -, happended⟩
    · rw [hsame]
      exact hbinding
    · rw [happended]
      exact List.mem_append_left _ hbinding

/-- **One call** keeps the agreement. -/
theorem held_step (held : Held led s) (input : LightingCall) :
    Held led (s.step catalog led input).1 := by
  cases input with
  | bind registration =>
    change Held led (if s.engine.attached then s else _)
    split
    · exact held
    · rename_i detached
      exact held_register held (Bool.eq_false_iff.mpr detached) registration
  | engine call stamps =>
    cases call with
    | clear => exact held
    | _ => exact held_engine held (by intro h; cases h) stamps

end Steps

/-! ### Runs -/

section Runs

variable {catalog : SignalCatalogView} {led : Sink}

/-- **Every run** keeps the agreement. -/
theorem held_run (inputs : List LightingCall) :
    Held led (Machine.after (Lighting.step catalog led) {} inputs) := by
  refine Machine.invariant (P := fun s _ => Held led s) ?_ ?_ inputs
  · refine ⟨(wellFormed_and_follows_after catalog []).1, ?_, ?_, ?_, ?_, ?_⟩
    · exact fun _ h => absurd h List.not_mem_nil
    · exact fun _ h => absurd h List.not_mem_nil
    · exact fun _ _ _ h => absurd h List.not_mem_nil
    · exact fun _ _ _ h => absurd h List.not_mem_nil
    · rintro command epoch ⟨⟩
  · exact fun s _ input held => held_step held input

/-- The engine of a run has met the calls that reach it. -/
theorem engine_after (inputs : List LightingCall) :
    (Machine.after (Lighting.step catalog led) {} inputs).engine =
      Machine.after (Engine.step catalog) {} (inputs.filterMap LightingCall.engineCall) := by
  induction inputs using List.reverseRecOn with
  | nil => rfl
  | append_singleton inputs input ih =>
    rw [Machine.after_snoc, List.filterMap_append, Machine.after_append, ← ih]
    cases input with
    | bind registration =>
      change (if _ then _ else _ : Lighting).engine = _
      split <;> rfl
    | engine call stamps => cases call <;> rfl

/-- Every level rule was evaluated since the attachment. -/
structure Evaluated (e : Engine) (log : Log) : Prop where
  state : ∀ rule, Rule.state rule ∈ e.rules → noticesOf rule.signal log ≠ []
  polled : ∀ index rule, e.polledRules[index]? = some rule → readsOf index log ≠ []

/-- The latest reading of no level rule is actionable. -/
structure NonActionable (e : Engine) (log : Log) : Prop where
  state : ∀ rule, Rule.state rule ∈ e.rules →
    ∀ reading, (noticesOf rule.signal log).getLast? = some reading →
      rule.condition.evaluate reading = none
  polled : ∀ index rule, e.polledRules[index]? = some rule →
    ∀ read, (readsOf index log).getLast? = some read → rule.Refuses read

/-- Without an actionable reading no rule is on. -/
theorem NonActionable.not_on {e : Engine} {log : Log} (dark : NonActionable e log)
    {lights : ActionCommand → Prop} {action : ActionId} : ¬ On e log lights action := by
  rintro (⟨rule, hrule, -, reading, latest, on⟩ | ⟨index, rule, hrule, -, read, latest, accepts, -⟩)
  · rw [dark.state rule hrule reading latest] at on
    cases on
  · exact accepts (dark.polled index rule hrule read latest)

/-- The commands that light an effect. -/
def LightsEffect (command : ActionCommand) : Prop := command.kind = .activate

/-- The commands that light a fill. -/
def LightsFill (command : ActionCommand) : Prop :=
  command.kind = .activate ∨ command.kind = .setLevel ∧ Binary32.lt ⟨0⟩ command.level = true

/-- Some commands light; a deactivation is none of them, and equal commands agree. -/
structure Lit (lights : ActionCommand → Prop) : Prop where
  agree : ∀ command other : ActionCommand, command.eq other = true → lights command → lights other
  dark : ∀ action, ¬ lights (levelCommand action false)

theorem lit_lightsEffect : Lit LightsEffect where
  agree command other same lights := by
    simp only [ActionCommand.eq, Bool.and_eq_true, beq_iff_eq] at same
    exact same.1.2.symm.trans lights
  dark action lights := by cases lights

theorem lit_lightsFill : Lit LightsFill where
  agree command other same lights := by
    simp only [ActionCommand.eq, Bool.and_eq_true, beq_iff_eq] at same
    obtain ⟨⟨-, hkind⟩, hlevel⟩ := same
    refine lights.imp (fun activates => hkind ▸ activates) ?_
    rintro ⟨sets, positive⟩
    refine ⟨hkind ▸ sets, ?_⟩
    -- equal levels are numbers of one value
    simp only [Binary32.eq, Binary32.lt, Bool.and_eq_true, decide_eq_true_eq] at hlevel positive ⊢
    exact ⟨⟨positive.1.1, hlevel.1.2⟩, hlevel.2 ▸ positive.2⟩
  dark action lights := by
    rcases lights with activates | ⟨sets, -⟩
    · cases activates
    · cases sets

section Readings

variable {e : Engine} {log : Log} {lights : ActionCommand → Prop}

/-- A state rule whose memory lights is on. -/
theorem on_of_state (lit : Lit lights) (follows : Follows catalog e log)
    (evaluated : Evaluated e log) {rule : StateRule} (hrule : Rule.state rule ∈ e.rules)
    (remembered : ∀ command, rule.remembered = some command → lights command) :
    On e log lights rule.action := by
  obtain ⟨index, hindex⟩ := List.mem_iff_getElem?.mp hrule
  have semantic := (follows.state index rule hindex).2
  cases latest : (noticesOf rule.signal log).getLast? with
  | none => exact absurd (List.getLast?_eq_none_iff.mp latest) (evaluated.state rule hrule)
  | some reading =>
    rw [latest] at semantic
    have lit' : lights (rule.output reading) := remembered _ semantic
    refine Or.inl ⟨rule, hrule, rfl, reading, latest, ?_⟩
    by_contra off
    rw [StateRule.output, beq_eq_false_iff_ne.mpr off] at lit'
    exact lit.dark _ lit'

/-- A polled rule whose memory lights is on. -/
theorem on_of_polled (lit : Lit lights) (follows : Follows catalog e log)
    (evaluated : Evaluated e log) {index : ℕ} {rule : PolledRule}
    (hrule : e.polledRules[index]? = some rule)
    (remembered : ∀ command, rule.remembered = some command → lights command) :
    On e log lights rule.action := by
  obtain ⟨semantic, -⟩ := (follows.polled index rule hrule).2
  have hreads := evaluated.polled index rule hrule
  obtain ⟨read, latest⟩ : ∃ read, (readsOf index log).getLast? = some read :=
    Option.ne_none_iff_exists'.mp fun none => hreads (List.getLast?_eq_none_iff.mp none)
  have output : ∃ command, rule.output (readsOf index log) = some command := by
    cases rule with
    | range rule => exact ⟨_, congrArg (Option.map _) latest⟩
    | sampledState rule => exact ⟨_, if_neg (by simpa using hreads)⟩
  obtain ⟨command, houtput⟩ := output
  rw [houtput] at semantic
  cases hmemory : rule.remembered with
  | none =>
    rw [hmemory] at semantic
    cases semantic
  | some held =>
    rw [hmemory] at semantic
    cases semantic with
    | some same =>
      have lit' : lights command := lit.agree held command same (remembered held hmemory)
      refine Or.inr ⟨index, rule, hrule, rfl, read, latest, fun refused => ?_, command, houtput,
        lit'⟩
      -- a refused read has the output of a deactivation
      obtain ⟨earlier, hearlier⟩ := List.getLast?_eq_some_iff.mp latest
      rw [hearlier, PolledRule.output_of_refused refused] at houtput
      obtain rfl := Option.some.inj houtput
      exact lit.dark _ lit'

end Readings

/-- A level that is not empty is positive. -/
theorem lt_of_fillLevel {level : Binary32} (nonempty : ¬ (fillLevel level).same .empty) :
    Binary32.lt ⟨0⟩ level = true := by
  by_contra dark
  refine nonempty ?_
  rw [fillLevel, if_pos dark]
  rfl

variable {s : Lighting} {log : Log}

/-- **A lit effect** has a rule that is on. -/
theorem on_of_effect (held : Held led s) (follows : Follows catalog s.engine log)
    (attached : s.engine.attached = true) (registered : led ∈ s.engine.sinks)
    (evaluated : Evaluated s.engine log) {effect : LedEffect}
    (lit : EffectBindings.lights s.leds.effects effect = true) :
    ∃ binding ∈ s.leds.effects.bindings, binding.effect = effect ∧
      On s.engine log LightsEffect binding.action := by
  obtain ⟨binding, hbinding, hlit⟩ := List.any_eq_true.mp lit
  simp only [Bool.and_eq_true, beq_iff_eq] at hlit
  refine ⟨binding, hbinding, hlit.2, ?_⟩
  have agrees := held.effects attached registered binding hbinding
  -- the memory of a rule that switches is a level, and the binding has it
  have activates : ∀ output, Remembered s.engine binding.action
      (levelCommand binding.action output) → LightsEffect (levelCommand binding.action output) := by
    intro output remembers
    cases output with
    | false => exact absurd (hlit.1.symm.trans (agrees _ remembers false rfl)) (by simp)
    | true => rfl
  rcases held.active binding hbinding hlit.1 with ⟨rule, hrule, haction⟩ |
    ⟨rule, hrule, haction, switches⟩
  · rw [← haction] at activates ⊢
    refine on_of_state lit_lightsEffect follows evaluated hrule fun command hmemory => ?_
    obtain ⟨output, -, rfl⟩ := Option.map_eq_some_iff.mp hmemory
    exact activates output (Or.inl ⟨rule, hrule, rfl, hmemory⟩)
  · obtain ⟨index, hindex⟩ := List.mem_iff_getElem?.mp hrule
    rw [← haction] at activates ⊢
    refine on_of_polled lit_lightsEffect follows evaluated hindex fun command hmemory => ?_
    cases rule with
    | range rule => exact switches.elim
    | sampledState rule =>
      obtain ⟨output, -, rfl⟩ := Option.map_eq_some_iff.mp hmemory
      exact activates output (Or.inr ⟨_, hrule, rfl, hmemory⟩)

/-- **A lit fill** has a rule that is on. -/
theorem on_of_fill (held : Held led s) (follows : Follows catalog s.engine log)
    (attached : s.engine.attached = true) (registered : led ∈ s.engine.sinks)
    (evaluated : Evaluated s.engine log) (hbinding : binding ∈ s.leds.fills.bindings)
    (nonempty : ¬ binding.level.same .empty) : On s.engine log LightsFill binding.action := by
  have agrees := held.fills attached registered binding hbinding
  have lights : ∀ command : ActionCommand, command.kind ≠ .trigger →
      Remembered s.engine binding.action command → LightsFill command := by
    intro command level remembers
    cases hkind : command.kind with
    | activate => exact Or.inl hkind
    | deactivate =>
      rw [agrees command remembers .empty (by rw [commandedLevel, hkind])] at nonempty
      exact absurd rfl nonempty
    | setLevel =>
      rw [agrees command remembers _ (by rw [commandedLevel, hkind])] at nonempty
      exact Or.inr ⟨hkind, lt_of_fillLevel nonempty⟩
    | trigger => exact absurd hkind level
  rcases held.filled binding hbinding nonempty with ⟨rule, hrule, haction⟩ |
    ⟨rule, hrule, haction, -⟩
  · rw [← haction] at lights ⊢
    refine on_of_state lit_lightsFill follows evaluated hrule fun command hmemory => ?_
    refine lights command ?_ (Or.inl ⟨rule, hrule, rfl, hmemory⟩)
    obtain ⟨output, -, rfl⟩ := Option.map_eq_some_iff.mp hmemory
    exact kind_levelCommand rule.action output
  · obtain ⟨index, hindex⟩ := List.mem_iff_getElem?.mp hrule
    rw [← haction] at lights ⊢
    refine on_of_polled lit_lightsFill follows evaluated hindex fun command hmemory => ?_
    refine lights command ?_ (Or.inr ⟨rule, hrule, rfl, hmemory⟩)
    -- the memory is the last level command that the rule sent
    obtain ⟨traced, -⟩ := follows.polled index rule hindex
    have sent : command ∈ levels rule.action (emitted catalog log) := by
      rw [traced.own]
      exact List.mem_of_getLast? (traced.last.trans hmemory)
    simpa using And.right (Bool.and_eq_true_iff.mp (List.mem_filter.mp sent).2)

end Runs

/-- The effects that a command lights. -/
def lightsOf (command : LightingCommand) : LedEffect → Bool
  | .leftTurn => command.leftTurn
  | .rightTurn => command.rightTurn
  | .brake => command.brake
  | .unknown _ => false

/-- **The engine and the lights fail dark**. After every run whose engine is attached with the
adapter among its sinks and has evaluated every level rule since, what the last published command
shows is on: a lit effect is bound to an action whose rule, on its latest reading, is actionable
and active; a fill is bound to one whose rule is actionable and active or at a positive level. If
no rule has an actionable latest reading, nothing is lit, and only a transient of the epoch of the
publication makes the command actionable. -/
theorem engine_lighting_fails_dark (catalog : SignalCatalogView) (led : Sink)
    (inputs : List LightingCall) :
    let s := Machine.after (Lighting.step catalog led) {} inputs
    let log := sinceAttach (Machine.moves (Engine.step catalog) {}
      (inputs.filterMap LightingCall.engineCall))
    s.engine = Machine.after (Engine.step catalog) {}
        (inputs.filterMap LightingCall.engineCall) ∧
    (s.engine.attached = true → led ∈ s.engine.sinks → Evaluated s.engine log →
      ∀ command epoch, s.published = some (command, epoch) →
        (∀ effect, lightsOf command effect = true →
          ∃ binding ∈ s.leds.effects.bindings, binding.effect = effect ∧
            On s.engine log LightsEffect binding.action) ∧
        (∀ fill ∈ command.fills.fills,
          ∃ binding ∈ s.leds.fills.bindings, binding.effect.zone = fill.zone ∧
            On s.engine log LightsFill binding.action) ∧
        (NonActionable s.engine log →
          (∀ effect, lightsOf command effect = false) ∧ command.fills.fills = [] ∧
          (command.actionable = true →
            ∃ start ∈ command.transients.starts, start.epoch = epoch))) := by
  intro s log
  have engine : s.engine = _ := engine_after inputs
  refine ⟨engine, fun attached registered evaluated command epoch last => ?_⟩
  have held : Held led s := held_run inputs
  have follows : Follows catalog s.engine log := by
    rw [engine]
    exact (wellFormed_and_follows_after catalog _).2 (engine ▸ attached)
  have shows := held.published command epoch last
  have effects : ∀ effect, lightsOf command effect = true →
      ∃ binding ∈ s.leds.effects.bindings, binding.effect = effect ∧
        On s.engine log LightsEffect binding.action := by
    intro effect lit
    refine on_of_effect held follows attached registered evaluated ?_
    cases effect with
    | leftTurn => exact shows.leftTurn lit
    | rightTurn => exact shows.rightTurn lit
    | brake => exact shows.brake lit
    | unknown beyond => cases lit
  have fills : ∀ fill ∈ command.fills.fills,
      ∃ binding ∈ s.leds.fills.bindings, binding.effect.zone = fill.zone ∧
        On s.engine log LightsFill binding.action := by
    intro fill hfill
    obtain ⟨binding, hbinding, nonempty, rfl⟩ := shows.fills fill hfill
    exact ⟨binding, hbinding, rfl,
      on_of_fill held follows attached registered evaluated hbinding nonempty⟩
  refine ⟨effects, fills, fun dark => ?_⟩
  have noEffect : ∀ effect, lightsOf command effect = false := by
    intro effect
    by_contra lit
    obtain ⟨binding, -, -, on⟩ := effects effect (by simpa using lit)
    exact dark.not_on on
  have noFill : command.fills.fills = [] := by
    refine List.eq_nil_iff_forall_not_mem.mpr fun fill hfill => ?_
    obtain ⟨binding, -, -, on⟩ := fills fill hfill
    exact dark.not_on on
  refine ⟨noEffect, noFill, fun actionable => ?_⟩
  rcases shows.actionable actionable with left | right | brake | nonempty | starts
  · exact absurd (left.symm.trans (noEffect .leftTurn)) (by simp)
  · exact absurd (right.symm.trans (noEffect .rightTurn)) (by simp)
  · exact absurd (brake.symm.trans (noEffect .brake)) (by simp)
  · exact absurd noFill nonempty
  · obtain ⟨start, hstart⟩ := List.exists_mem_of_ne_nil _ starts
    exact ⟨start, hstart, shows.current start hstart⟩

/-- One signal that is notified. -/
def brakeCatalog : SignalCatalogView :=
  [{ id := ⟨1⟩, key := [98], capabilities := { notify := true } }]

/-- The brake light is bound to the signal, which is first on and then without data. -/
def brakeCalls : List LightingCall :=
  let answers : ProviderAnswers := ⟨fun _ => ⟨.ok, some 7⟩, fun _ => .ok⟩
  let stamps : Stamps := fun _ => (100, 0)
  [.bind (.effect ⟨1⟩ .brake {}), .engine (.addSink 3) stamps,
    .engine (.addStateRule { condition := ⟨[98], .equal, .boolean true⟩, action := ⟨1⟩ }) stamps,
    .engine (.attach answers) stamps,
    .engine (.notice { id := ⟨1⟩, current := { value := some (.boolean true)
                                               availability := .fresh } }) stamps,
    .engine (.notice { id := ⟨1⟩ }) stamps]

/-- The brake light goes out when its signal is lost. -/
theorem engine_lighting_fails_dark_brake :
    ((Machine.after (Lighting.step brakeCatalog 3) {} (brakeCalls.take 5)).published.map
      fun last => lightsOf last.1 .brake) = some true ∧
    ((Machine.after (Lighting.step brakeCatalog 3) {} brakeCalls).published.map
      fun last => lightsOf last.1 .brake) = some false := by
  have law := (engine_lighting_fails_dark brakeCatalog 3 brakeCalls).2
  have rules : (Machine.after (Lighting.step brakeCatalog 3) {} brakeCalls).engine.rules =
      [.state { condition := ⟨⟨1⟩, .equal, .boolean true, .fresh⟩, action := ⟨1⟩,
                lastOutput := some false }] := by decide
  have evaluated := law (by decide) (by decide) ⟨fun rule hrule => ?_, fun index rule hrule => ?_⟩
  · obtain ⟨⟨command, epoch⟩, last⟩ : ∃ last, (Machine.after (Lighting.step brakeCatalog 3) {}
        brakeCalls).published = some last := Option.isSome_iff_exists.mp (by decide)
    refine ⟨by decide, ?_⟩
    rw [last]
    have dark := (evaluated command epoch last).2.2 ⟨fun rule hrule reading latest => ?_,
      fun index rule hrule => ?_⟩
    · exact congrArg some (dark.1 .brake)
    · rw [rules] at hrule
      obtain rfl := Rule.state.inj (List.mem_singleton.mp hrule)
      cases latest
      rfl
    · cases hrule
  · rw [rules] at hrule
    obtain rfl := Rule.state.inj (List.mem_singleton.mp hrule)
    decide
  · cases hrule

end AccessoryController.LocalArgbActions
