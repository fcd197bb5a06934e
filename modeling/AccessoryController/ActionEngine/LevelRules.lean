import AccessoryController.ActionEngine.Rules

/-!
# What a level rule emits

The semantic output of a level rule is a function of the readings that it has seen; a rule with a
release threshold needs all of them, the others the latest. What a rule remembers is what it
emitted last, and equals its semantic output.

## Main definitions

* `StateRule.output`, `RangeRule.output`, `SampledStateRule.output`: the semantic outputs
* `SameCommand`: equality of commands as the engine compares them
* `Emits`: the effect of one evaluation of a level rule

## Main results

* `PolledRule.output_of_refused`: the output is fail-off
* `StateRule.emits_onNotice`, `PolledRule.emits_onSample`: every evaluation has that effect
* `PolledRule.remembers_onSample`: what a polled rule remembers is its semantic output
-/

namespace AccessoryController.ActionEngine

open VehicleSignals

/-! ### Semantic outputs -/

/-- A state rule is active on the readings that are actionable and satisfy its condition. -/
def StateRule.output (rule : StateRule) (reading : SignalReading) : ActionCommand :=
  levelCommand rule.action (rule.condition.evaluate reading == some true)

/-- A range rule sets the level of an actionable number, and is inactive otherwise. -/
def RangeRule.output (rule : RangeRule) (reads : List Read) : Option ActionCommand :=
  reads.getLast?.map fun read =>
    match rule.actionableNumber read with
    | none => levelCommand rule.action false
    | some value =>
      { action := rule.action, kind := .setLevel, level := rule.mapping.map value }

/-- A sampled state rule is active after a read that succeeded with an actionable reading which
satisfies the activation condition, or the release condition if the rule was active before. -/
def SampledStateRule.active (rule : SampledStateRule) (reads : List Read) : Bool :=
  reads.foldl (fun wasActive read =>
    read.success?.bind (rule.conditionAfter wasActive).evaluate == some true) false

def SampledStateRule.output (rule : SampledStateRule) (reads : List Read) :
    Option ActionCommand :=
  if reads.isEmpty then none else some (levelCommand rule.action (rule.active reads))

def PolledRule.output : PolledRule → List Read → Option ActionCommand
  | .range rule => rule.output
  | .sampledState rule => rule.output

/-- The read failed, or its reading is not actionable for the rule. -/
def PolledRule.Refuses (rule : PolledRule) (read : Read) : Prop :=
  ∀ reading, read.success? = some reading →
    match rule with
    | .range rule => actionableValue reading .number rule.freshness = none
    | .sampledState rule => ∀ wasActive, (rule.conditionAfter wasActive).evaluate reading = none

/-- **Fail-off**: a state rule is inactive on a reading without a verdict. -/
theorem StateRule.output_of_refused {rule : StateRule} {reading : SignalReading}
    (refused : rule.condition.evaluate reading = none) :
    rule.output reading = levelCommand rule.action false := by
  rw [StateRule.output, refused]
  rfl

variable {rule : PolledRule} (action : ActionId)

/-- **Fail-off**: a polled rule is inactive after a failed read or a reading that is not
actionable. -/
theorem PolledRule.output_of_refused
    {read : Read} (refused : rule.Refuses read) (reads : List Read) :
    rule.output (reads ++ [read]) = some (levelCommand rule.action false) := by
  cases rule with
  | range rule =>
    have hnone : rule.actionableNumber read = none := by
      unfold RangeRule.actionableNumber
      cases hread : read.success? with
      | none => rfl
      | some reading =>
        rw [Option.bind_some, refused reading hread]
        rfl
    change rule.output (reads ++ [read]) = _
    rw [RangeRule.output, List.getLast?_concat, Option.map_some, hnone]
    rfl
  | sampledState rule =>
    have hinactive : rule.active (reads ++ [read]) = false := by
      rw [SampledStateRule.active, List.foldl_append, List.foldl_cons, List.foldl_nil]
      cases hread : read.success? with
      | none => rfl
      | some reading =>
        rw [Option.bind_some, refused reading hread]
        rfl
    change rule.output (reads ++ [read]) = _
    rw [SampledStateRule.output, hinactive, if_neg (by simp)]
    rfl

/-- The equality of commands that the engine uses. -/
def SameCommand : Option ActionCommand → Option ActionCommand → Prop :=
  Option.Rel fun command other => command.eq other = true

/-! ### Memory -/

/-- The command that a rule remembers to have emitted last. -/
def StateRule.remembered (rule : StateRule) : Option ActionCommand :=
  rule.lastOutput.map (levelCommand rule.action)

def PolledRule.remembered : PolledRule → Option ActionCommand
  | .range rule => rule.last
  | .sampledState rule => rule.lastOutput.map (levelCommand rule.action)

/-- An evaluation of a level rule that drives `action`: the memory follows the emitted command,
and a command that repeats the last one is emitted only if `mayRepeat`. -/
structure Emits (action : ActionId) (remembered : Option ActionCommand)
    (emitted : Option ActionCommand) (remembered' : Option ActionCommand) (mayRepeat : Prop) :
    Prop where
  remembers : remembered' = emitted.or remembered
  level : ∀ command ∈ emitted, command.action = action ∧ command.kind ≠ .trigger
  changes : ∀ command ∈ emitted, ∀ prior ∈ remembered, prior.eq command = true → mayRepeat

/-- An evaluation that emits nothing. -/
theorem Emits.none (remembered : Option ActionCommand) (mayRepeat : Prop) :
    Emits action remembered Option.none remembered mayRepeat :=
  ⟨rfl, fun _ h => (Option.not_mem_none _ h).elim, fun _ h => (Option.not_mem_none _ h).elim⟩

theorem kind_levelCommand (output : Bool) : (levelCommand action output).kind ≠ .trigger := by
  cases output <;> simp [levelCommand]

theorem eq_levelCommand (output output' : Bool) :
    (levelCommand action output).eq (levelCommand action output') = decide (output = output') := by
  have hzero : Binary32.eq ⟨0⟩ ⟨0⟩ = true := by decide
  cases output <;> cases output' <;> simp [ActionCommand.eq, levelCommand, hzero]

theorem sameCommand_levelCommand (output : Bool) :
    SameCommand (some (levelCommand action output)) (some (levelCommand action output)) :=
  .some (by rw [eq_levelCommand, decide_eq_true rfl])

/-- A rule that emits a level when the level is not the one it remembers. -/
theorem emits_levelCommand {lastOutput : Option Bool} {output : Bool} {mayRepeat : Prop}
    (changed : lastOutput = some output → mayRepeat) :
    Emits action (lastOutput.map (levelCommand action)) (some (levelCommand action output))
      (some (levelCommand action output)) mayRepeat := by
  refine ⟨rfl, ?_, ?_⟩
  · rintro command ⟨⟩
    exact ⟨rfl, kind_levelCommand action output⟩
  · rintro command ⟨⟩ prior hprior heq
    obtain ⟨output', houtput, rfl⟩ := Option.map_eq_some_iff.mp hprior
    rw [eq_levelCommand] at heq
    exact changed (by rw [houtput, of_decide_eq_true heq])

theorem getD_false (verdict : Option Bool) : verdict.getD false = (verdict == some true) := by
  rcases verdict with _ | _ | _ <;> rfl

/-! ### State rules -/

/-- What a state rule is after a notice. -/
theorem StateRule.onNotice_fst (rule : StateRule) (notice : SignalNotification) :
    (rule.onNotice notice).1 =
      { rule with lastOutput := some (rule.condition.evaluate notice.current == some true) } := by
  unfold StateRule.onNotice
  rw [getD_false]
  dsimp only
  split
  · rename_i unchanged
    rw [← unchanged.2]
  · rfl

theorem StateRule.emits_onNotice (rule : StateRule) (notice : SignalNotification) :
    Emits rule.action rule.remembered (rule.onNotice notice).2
      (rule.onNotice notice).1.remembered (notice.initial = true) := by
  unfold StateRule.onNotice StateRule.remembered
  dsimp only
  split
  · exact .none _ _ _
  · rename_i changed
    refine emits_levelCommand rule.action fun same => ?_
    by_contra hinitial
    exact changed ⟨by simpa using hinitial, same⟩

/-! ### Polled rules -/

namespace PolledRule

/-- The mapping of a range rule is validated. -/
def valid : PolledRule → Prop
  | .range rule => rule.mapping.valid = true
  | .sampledState _ => True

theorem action_onSample (rule : PolledRule) (read : Read) :
    (rule.onSample read).1.action = rule.action := by
  cases rule with
  | range rule =>
    change (rule.onSample read).1.action = rule.action
    unfold RangeRule.onSample
    dsimp only
    split <;> rfl
  | sampledState rule =>
    change (rule.onSample read).1.action = rule.action
    unfold SampledStateRule.onSample
    dsimp only
    split <;> rfl

theorem output_onSample (rule : PolledRule) (read : Read) :
    (rule.onSample read).1.output = rule.output := by
  cases rule with
  | range rule =>
    change (rule.onSample read).1.output = rule.output
    unfold RangeRule.onSample
    dsimp only
    split <;> rfl
  | sampledState rule =>
    change (rule.onSample read).1.output = rule.output
    unfold SampledStateRule.onSample
    dsimp only
    split <;> rfl

theorem valid_onSample (valid : rule.valid) (read : Read) : (rule.onSample read).1.valid := by
  cases rule with
  | range rule =>
    change (rule.onSample read).1.mapping.valid = true
    unfold RangeRule.onSample
    dsimp only
    split <;> exact valid
  | sampledState rule => exact trivial

/-- **An evaluation of a polled rule** never repeats a command. -/
theorem emits_onSample (rule : PolledRule) (read : Read) :
    Emits rule.action rule.remembered (rule.onSample read).2
      (rule.onSample read).1.remembered False := by
  cases rule with
  | range rule =>
    change Emits rule.action rule.last (rule.onSample read).2 (rule.onSample read).1.last False
    unfold RangeRule.onSample
    dsimp only
    split
    · exact .none _ _ _
    · rename_i changed
      refine ⟨rfl, ?_, ?_⟩
      · rintro command ⟨⟩
        unfold RangeRule.commandFor
        split <;> exact ⟨rfl, by simp⟩
      · rintro command ⟨⟩ prior hprior heq
        rw [Option.mem_def] at hprior
        rw [hprior] at changed
        exact changed heq
  | sampledState rule =>
    change Emits rule.action (rule.lastOutput.map (levelCommand rule.action))
      (rule.onSample read).2
      ((rule.onSample read).1.lastOutput.map (levelCommand (rule.onSample read).1.action)) False
    unfold SampledStateRule.onSample
    dsimp only
    split
    · exact .none _ _ _
    · rename_i changed
      exact emits_levelCommand rule.action changed

/-- A command of a validated range rule equals itself. -/
theorem eq_commandFor {rule : RangeRule} (valid : rule.mapping.valid = true) (read : Read) :
    (rule.commandFor read).eq (rule.commandFor read) = true := by
  have heq : ∀ level : Binary32, level.isNaN = false → level.eq level = true := by
    intro level hnan
    simp [Binary32.eq, hnan]
  unfold RangeRule.commandFor
  split
  · simp [ActionCommand.eq, heq ⟨0⟩ (by decide)]
  · rename_i value hvalue
    obtain ⟨actionable, hactionable, hnumber⟩ := Option.bind_eq_some_iff.mp hvalue
    obtain ⟨reading, -, hreading⟩ := Option.bind_eq_some_iff.mp hactionable
    have finite := (isFinite_of_actionableValue hreading).2 value hnumber
    simp [ActionCommand.eq, heq _ (LinearMapping.isNaN_map valid finite)]

/-- What a polled rule knows of its reads: it remembers its semantic output, and whether it was
active decides the next condition. -/
def Remembers (rule : PolledRule) (reads : List Read) : Prop :=
  SameCommand rule.remembered (rule.output reads) ∧
    match rule with
    | .range _ => True
    | .sampledState rule => rule.lastOutput.getD false = rule.active reads

/-- **One read** keeps the memory of a polled rule equal to its semantic output. -/
theorem remembers_onSample (valid : rule.valid) {reads : List Read}
    (remembers : rule.Remembers reads) (read : Read) :
    (rule.onSample read).1.Remembers (reads ++ [read]) := by
  cases rule with
  | range rule =>
    have output : rule.output (reads ++ [read]) = some (rule.commandFor read) := by
      rw [RangeRule.output, List.getLast?_concat]
      rfl
    refine ⟨?_, trivial⟩
    rw [output_onSample]
    change SameCommand (rule.onSample read).1.last (rule.output (reads ++ [read]))
    rw [output]
    unfold RangeRule.onSample
    dsimp only
    split
    · rename_i same
      cases hlast : rule.last with
      | none =>
        rw [hlast] at same
        cases same
      | some last =>
        rw [hlast] at same
        exact .some same
    · exact .some (eq_commandFor valid read)
  | sampledState rule =>
    obtain ⟨-, wasActive⟩ := remembers
    have hactive : rule.active (reads ++ [read]) =
        (read.success?.bind (rule.conditionAfter (rule.lastOutput.getD false)).evaluate).getD
          false := by
      rw [SampledStateRule.active, List.foldl_append, getD_false, wasActive]
      rfl
    have output : rule.output (reads ++ [read]) =
        some (levelCommand rule.action (rule.active (reads ++ [read]))) :=
      if_neg (by simp)
    have after : (rule.onSample read).1 =
        { rule with lastOutput := some (rule.active (reads ++ [read])) } := by
      unfold SampledStateRule.onSample
      rw [hactive]
      dsimp only
      split
      · rename_i same
        rw [← same]
      · rfl
    change SameCommand ((rule.onSample read).1.lastOutput.map
        (levelCommand (rule.onSample read).1.action)) ((rule.onSample read).1.output _) ∧
      (rule.onSample read).1.lastOutput.getD false = (rule.onSample read).1.active _
    rw [after]
    refine ⟨?_, rfl⟩
    change SameCommand (some _) (rule.output _)
    rw [output]
    exact sameCommand_levelCommand _ _

end PolledRule

end AccessoryController.ActionEngine
