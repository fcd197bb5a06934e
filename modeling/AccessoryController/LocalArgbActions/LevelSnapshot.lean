import AccessoryController.LocalArgbActions.EngineLighting

/-!
# The snapshot is a function of the levels

The adapter executes commands of many actions, some of which may share a target, and hands a
snapshot of its tables to the lighting sink after each bound one. A binding changes only on the
commands of its action, so the tables after any run are decided for each binding by the commands
of its action alone, whatever order the actions are interleaved in.

## Main definitions

* `Execution`, `LedActionSink.execute`: one command with what the adapter reads and is answered
* `onOffLevelOf`, `fillLevelOf`: the last levels commanded for an action
* `SameByAction`: two runs that agree on the commands of each action
* `snapshots`: the snapshots that a run hands to the lighting sink

## Main results

* `effects_run`, `fills_run`: the levels after a run
* `execute_unbound`: an unbound command changes nothing and publishes nothing
* `lit_fills`: the fills of a snapshot are those of the bindings with a level
* `snapshot_of_levels`: the law of every run
-/

namespace AccessoryController.LocalArgbActions

open ActionEngine (ActionCommand ActionCommandKind ActionId)
open TransientBinding
open LocalArgb
open VehicleCore (MonotonicTimestamp)

/-- A command with the clock and the epoch that the adapter reads in its execution, and with the
answer of the lighting sink to the snapshot, if one is handed over. -/
structure Execution where
  command : ActionCommand
  nowUs : MonotonicTimestamp := 0
  epoch : ℕ := 0
  accepted : Bool := true
  deriving DecidableEq

/-- One execution, with the snapshot that it hands to the lighting sink. -/
def LedActionSink.execute (leds : LedActionSink) (e : Execution) :
    LedActionSink × Option LightingCommand :=
  let recorded := leds.record e.command e.nowUs e.epoch
  match recorded.2 with
  | none => (recorded.1, none)
  | some snapshot => (recorded.1.settle e.accepted, some snapshot)

/-- The level of the last Activate or Deactivate of an action. -/
def onOffLevelOf (action : ActionId) (run : List Execution) : Option Bool :=
  (run.filterMap fun e =>
    if action = e.command.action then onOffLevel e.command.kind else none).getLast?

/-- The level of the last command of an action that is no trigger. -/
def fillLevelOf (action : ActionId) (run : List Execution) : Option FillFraction :=
  (run.filterMap fun e =>
    if action = e.command.action then commandedLevel e.command else none).getLast?

/-- The executions of an action, in order. -/
def ofAction (action : ActionId) (run : List Execution) : List Execution :=
  run.filter fun e => action = e.command.action

/-- The runs agree on the executions of each action, and may interleave the actions differently. -/
def SameByAction (run run' : List Execution) : Prop :=
  ∀ action, ofAction action run = ofAction action run'

/-- The snapshots of a run, in order. -/
def snapshots (leds : LedActionSink) (run : List Execution) : List LightingCommand :=
  (Machine.trace LedActionSink.execute leds run).filterMap Prod.snd

/-! ### Bindings and the commands of their actions -/

variable {e : Execution} {Binding : Type}

section Bindings

variable (leds : LedActionSink)

/-- The fate of a transient binding in an execution that is not rejected. -/
def TransientBinding.after (binding : TransientBinding) (e : Execution) : TransientBinding :=
  if e.command.kind = .trigger ∧ binding.action = e.command.action then
    binding.triggered e.nowUs e.epoch
  else binding

theorem settle_effects (accepted : Bool) : (leds.settle accepted).effects = leds.effects := by
  unfold LedActionSink.settle
  split <;> rfl

theorem settle_fills (accepted : Bool) : (leds.settle accepted).fills = leds.fills := by
  unfold LedActionSink.settle
  split <;> rfl

/-- Whatever an execution hands over, its tables are the recorded ones apart from the starts. -/
theorem execute_tables (e : Execution) :
    (leds.execute e).1.effects = (leds.record e.command e.nowUs e.epoch).1.effects ∧
      (leds.execute e).1.fills = (leds.record e.command e.nowUs e.epoch).1.fills := by
  unfold LedActionSink.execute
  dsimp only
  split
  · exact ⟨rfl, rfl⟩
  · exact ⟨settle_effects _ _, settle_fills _ _⟩

theorem effects_execute (e : Execution) :
    (leds.execute e).1.effects.bindings = leds.effects.bindings.map (·.after e.command) := by
  rw [(execute_tables leds e).1]
  unfold LedActionSink.record EffectBinding.after
  cases onOffLevel e.command.kind with
  | none => exact (List.map_id' _).symm
  | some active => rfl

theorem fills_execute (e : Execution) :
    (leds.execute e).1.fills.bindings = leds.fills.bindings.map (·.after e.command) := by
  rw [(execute_tables leds e).2]
  unfold LedActionSink.record FillBinding.after
  cases commandedLevel e.command with
  | none => exact (List.map_id' _).symm
  | some level => rfl

/-- Without a rejection the recorded starts stay. -/
theorem execute_accepted (accepted : e.accepted = true) :
    (leds.execute e).1.transients = (leds.record e.command e.nowUs e.epoch).1.transients := by
  unfold LedActionSink.execute
  dsimp only
  split
  · rfl
  · rw [LedActionSink.settle, if_pos accepted]

theorem transients_execute (accepted : e.accepted = true) :
    (leds.execute e).1.transients.bindings = leds.transients.bindings.map (·.after e) := by
  rw [execute_accepted leds accepted]
  unfold LedActionSink.record after
  by_cases trigger : e.command.kind = .trigger
  · simp only [trigger, if_true, true_and]
    rfl
  · simp only [trigger, if_false, false_and]
    exact (List.map_id' _).symm

/-- Bindings that every execution maps are folded over the whole run. -/
theorem bindings_run (run : List Execution) (table : LedActionSink → List Binding)
    (after : Binding → Execution → Binding)
    (execute : ∀ leds, ∀ e ∈ run, table (LedActionSink.execute leds e).1 =
      (table leds).map fun binding => after binding e) :
    table (Machine.after LedActionSink.execute leds run) =
      (table leds).map fun binding => run.foldl after binding := by
  induction run generalizing leds with
  | nil => exact (List.map_id' _).symm
  | cons e run ih =>
    have rest := ih (leds.execute e).1 fun leds e' he' =>
      execute leds e' (List.mem_cons_of_mem _ he')
    refine rest.trans ?_
    rw [execute leds e List.mem_cons_self, List.map_map]
    rfl

/-- A binding with a level that the commands of its action set, and no others. -/
theorem foldl_level {Level : Type} {after : Binding → Execution → Binding}
    (action : Binding → ActionId) (commanded : Execution → Option Level)
    (set : Binding → Level → Binding)
    (keeps : ∀ binding level, action (set binding level) = action binding)
    (overwrites : ∀ binding level level', set (set binding level) level' = set binding level')
    (sets : ∀ binding e, after binding e =
      ((if action binding = e.command.action then commanded e else none).map (set binding)).getD
        binding) (run : List Execution) (binding : Binding) :
    run.foldl after binding = (((run.filterMap fun e =>
      if action binding = e.command.action then commanded e else none).getLast?).map
        (set binding)).getD binding := by
  induction run using List.reverseRecOn with
  | nil => rfl
  | append_singleton run e ih =>
    rw [List.foldl_append, List.foldl_cons, List.foldl_nil, ih, sets, List.filterMap_append,
      List.getLast?_append]
    -- the level so far is overwritten by the last command, if it sets one
    cases hlast : (run.filterMap fun e =>
        if action binding = e.command.action then commanded e else none).getLast? with
    | none =>
      cases hnew : (if action binding = e.command.action then commanded e else none) <;>
        simp [hnew]
    | some level =>
      cases hnew : (if action binding = e.command.action then commanded e else none) <;>
        simp [hnew, keeps, overwrites]

/-- **The effect bindings after a run**: the last Activate or Deactivate of the action counts. -/
theorem effects_run (run : List Execution) :
    (Machine.after LedActionSink.execute leds run).effects.bindings =
      leds.effects.bindings.map fun binding =>
        { binding with active := (onOffLevelOf binding.action run).getD binding.active } := by
  have folded := bindings_run leds run (fun leds => leds.effects.bindings)
    (fun binding e => binding.after e.command) fun leds e _ => effects_execute leds e
  refine folded.trans (List.map_congr_left fun binding _ => ?_)
  refine (foldl_level EffectBinding.action (fun e => onOffLevel e.command.kind)
    (fun binding active => { binding with active }) (fun _ _ => rfl) (fun _ _ _ => rfl) ?_ run
    binding).trans ?_
  · intro binding e
    unfold EffectBinding.after
    by_cases own : binding.action = e.command.action <;>
      cases onOffLevel e.command.kind <;> simp [own]
  · unfold onOffLevelOf
    cases List.getLast? _ <;> rfl

/-- **The fill bindings after a run**: the last command of the action that is no trigger counts. -/
theorem fills_run (run : List Execution) :
    (Machine.after LedActionSink.execute leds run).fills.bindings =
      leds.fills.bindings.map fun binding =>
        { binding with level := (fillLevelOf binding.action run).getD binding.level } := by
  have folded := bindings_run leds run (fun leds => leds.fills.bindings)
    (fun binding e => binding.after e.command) fun leds e _ => fills_execute leds e
  refine folded.trans (List.map_congr_left fun binding _ => ?_)
  refine (foldl_level FillBinding.action (fun e => commandedLevel e.command)
    (fun binding level => { binding with level }) (fun _ _ => rfl) (fun _ _ _ => rfl) ?_ run
    binding).trans ?_
  · intro binding e
    unfold FillBinding.after
    by_cases own : binding.action = e.command.action <;>
      cases commandedLevel e.command <;> simp [own]
  · unfold fillLevelOf
    cases List.getLast? _ <;> rfl

/-- The transient bindings after a run without a rejected snapshot. -/
theorem transients_run {run : List Execution} (accepted : ∀ e ∈ run, e.accepted = true) :
    (Machine.after LedActionSink.execute leds run).transients.bindings =
      leds.transients.bindings.map fun binding =>
        (ofAction binding.action run).foldl after binding := by
  refine (bindings_run leds run (fun leds => leds.transients.bindings) after
    fun leds e he => transients_execute leds (accepted e he)).trans ?_
  refine List.map_congr_left fun binding _ => ?_
  refine History.foldl_own (fun action e => action = e.command.action) ?_ ?_ run binding
  · intro binding e
    unfold after
    split <;> rfl
  · exact fun binding e other => if_neg fun trigger => of_decide_eq_false other trigger.2

end Bindings

/-! ### Bound commands -/

section Bound

variable (leds : LedActionSink)

/-- Something is bound to the action that the command can change. -/
def LedActionSink.Binds (command : ActionCommand) : Bool :=
  (onOffLevel command.kind).isSome &&
      leds.effects.bindings.any (fun binding => binding.action == command.action) ||
    (commandedLevel command).isSome &&
      leds.fills.bindings.any (fun binding => binding.action == command.action) ||
    decide (command.kind = .trigger) &&
      leds.transients.bindings.any (fun binding => binding.action == command.action)

/-- The effect table after a command, and whether the command is bound there. -/
def LedActionSink.heldEffects (command : ActionCommand) : EffectBindings × Bool :=
  match onOffLevel command.kind with
  | some active => EffectBindings.hold leds.effects command.action active
  | none => (leds.effects, false)

/-- The fill table after a command, and whether the command is bound there. -/
def LedActionSink.heldFills (command : ActionCommand) : FillBindings × Bool :=
  match commandedLevel command with
  | some level => FillBindings.hold leds.fills command.action level
  | none => (leds.fills, false)

/-- A bound command hands over the recorded tables. -/
theorem record_snd (command : ActionCommand) (nowUs : MonotonicTimestamp) (epoch : ℕ) :
    (leds.record command nowUs epoch).2 =
      if leds.Binds command then
        some (heldCommand (leds.record command nowUs epoch).1.effects
          (leds.record command nowUs epoch).1.fills
          (leds.record command nowUs epoch).1.transients epoch)
      else none := by
  have bound : ((leds.heldEffects command).2 || (leds.heldFills command).2 ||
      (if command.kind = .trigger then
          TransientBindings.trigger leds.transients command.action nowUs epoch
        else (leds.transients, false)).2) = leds.Binds command := by
    unfold LedActionSink.Binds LedActionSink.heldEffects LedActionSink.heldFills
    congr 1
    · congr 1
      · cases onOffLevel command.kind <;> rfl
      · cases commandedLevel command <;> rfl
    · by_cases trigger : command.kind = .trigger
      · rw [if_pos trigger, decide_eq_true trigger]
        rfl
      · rw [if_neg trigger, decide_eq_false trigger]
        rfl
  rw [← bound]
  rfl

/-- A command of an action that nothing is bound to changes nothing. -/
theorem record_unbound {command : ActionCommand} (unbound : leds.Binds command = false)
    (nowUs : MonotonicTimestamp) (epoch : ℕ) : (leds.record command nowUs epoch).1 = leds := by
  simp only [LedActionSink.Binds, Bool.or_eq_false_iff, Bool.and_eq_false_iff] at unbound
  obtain ⟨⟨noEffect, noFill⟩, noTransient⟩ := unbound
  have effects : (leds.heldEffects command).1 = leds.effects := by
    unfold LedActionSink.heldEffects
    cases hlevel : onOffLevel command.kind with
    | none => rfl
    | some active =>
      rw [hlevel] at noEffect
      exact Table.hold_unbound (noEffect.resolve_left Bool.noConfusion)
  have fills : (leds.heldFills command).1 = leds.fills := by
    unfold LedActionSink.heldFills
    cases hlevel : commandedLevel command with
    | none => rfl
    | some level =>
      rw [hlevel] at noFill
      exact Table.hold_unbound (noFill.resolve_left Bool.noConfusion)
  have transients : (if command.kind = .trigger then
        TransientBindings.trigger leds.transients command.action nowUs epoch
      else (leds.transients, false)).1 = leds.transients := by
    by_cases trigger : command.kind = .trigger
    · rw [if_pos trigger]
      refine Table.hold_unbound (noTransient.resolve_left ?_)
      simp [trigger]
    · rw [if_neg trigger]
  exact LedActionSink.mk.injEq .. ▸ ⟨effects, fills, transients⟩

/-- **An unbound command** changes nothing and publishes nothing. -/
theorem execute_unbound (unbound : leds.Binds e.command = false) :
    leds.execute e = (leds, none) := by
  unfold LedActionSink.execute
  dsimp only
  rw [record_snd, unbound, record_unbound leds unbound]
  rfl

/-- **A bound command** hands over its levels, which stay whatever the lighting sink answers. -/
theorem execute_bound (bound : leds.Binds e.command = true) :
    (leds.execute e).2 = some (heldCommand (leds.execute e).1.effects (leds.execute e).1.fills
      (leds.record e.command e.nowUs e.epoch).1.transients e.epoch) := by
  obtain ⟨effects, fills⟩ := execute_tables leds e
  rw [effects, fills]
  unfold LedActionSink.execute
  dsimp only
  rw [record_snd, bound]
  rfl

/-- No execution changes which commands are bound. -/
theorem binds_execute (e : Execution) (command : ActionCommand) :
    (leds.execute e).1.Binds command = leds.Binds command := by
  have effects : (leds.execute e).1.effects.bindings.any (fun b => b.action == command.action) =
      leds.effects.bindings.any fun b => b.action == command.action := by
    rw [effects_execute, List.any_map]
    exact congrArg _ (funext fun b => by simp)
  have fills : (leds.execute e).1.fills.bindings.any (fun b => b.action == command.action) =
      leds.fills.bindings.any fun b => b.action == command.action := by
    rw [fills_execute, List.any_map]
    exact congrArg _ (funext fun b => by simp)
  have recorded : (leds.record e.command e.nowUs e.epoch).1.transients.bindings.map
      action = leds.transients.bindings.map action := by
    unfold LedActionSink.record
    dsimp only
    split
    · unfold TransientBindings.trigger
      rw [Table.hold_bindings, List.map_map]
      refine List.map_congr_left fun b _ => ?_
      rw [Function.comp_apply]
      split <;> rfl
    · rfl
  have actions : (leds.execute e).1.transients.bindings.map action =
      leds.transients.bindings.map action := by
    rw [← recorded]
    unfold LedActionSink.execute LedActionSink.settle TransientBindings.discardStarts
    dsimp only
    split
    · rfl
    · split
      · rfl
      · rw [List.map_map]
        rfl
  have transients :
      (leds.execute e).1.transients.bindings.any (fun b => b.action == command.action) =
        leds.transients.bindings.any fun b => b.action == command.action := by
    have any : ∀ bindings : List TransientBinding,
        bindings.any (fun b => b.action == command.action) =
          (bindings.map action).any fun action => action == command.action := by
      intro bindings
      rw [List.any_map]
      rfl
    rw [any, any, actions]
  simp only [LedActionSink.Binds, effects, fills, transients]

theorem binds_run (run : List Execution) (command : ActionCommand) :
    (Machine.after LedActionSink.execute leds run).Binds command = leds.Binds command := by
  induction run using List.reverseRecOn with
  | nil => rfl
  | append_singleton run e ih => rw [Machine.after_snoc, binds_execute, ih]

end Bound

/-! ### Snapshots -/

/-- A fill binding as it is drawn. -/
def FillBinding.fill (binding : FillBinding) : LightingFill :=
  ⟨binding.effect.zone, binding.level, binding.effect.color, binding.effect.priority⟩

/-- A level is empty exactly if its numerator is zero. -/
theorem same_empty_iff (level : FillFraction) : level.same .empty ↔ level.numerator = 0 := by
  simp [FillFraction.same, FillFraction.empty]

/-- **The fills of a snapshot** are those of the bindings with a level, in binding order. -/
theorem lit_fills (table : FillBindings) :
    table.lit.fills =
      (table.bindings.filter fun binding => binding.level.numerator ≠ 0).map FillBinding.fill := by
  -- a list of fills has room for every binding of the table
  have all : ∀ (bindings : List FillBinding) (fills : LightingFills),
      fills.fills.length + bindings.length ≤ kMaxFills →
      (bindings.foldl (fun (fills : LightingFills) binding =>
        if binding.level.same .empty then fills
        else (fills.add ⟨binding.effect.zone, binding.level, binding.effect.color,
          binding.effect.priority⟩).1) fills).fills = fills.fills ++
        (bindings.filter fun binding => binding.level.numerator ≠ 0).map FillBinding.fill := by
    intro bindings
    induction bindings with
    | nil => exact fun fills _ => (List.append_nil _).symm
    | cons binding bindings ih =>
      intro fills room
      rw [List.length_cons] at room
      rw [List.foldl_cons]
      by_cases empty : binding.level.numerator = 0
      · rw [if_pos ((same_empty_iff _).mpr empty), ih fills (by omega),
          List.filter_cons_of_neg (by simp [empty])]
      · have added : (fills.add binding.fill).1.fills = fills.fills ++ [binding.fill] := by
          rw [LightingFills.add, dif_neg (by omega)]
        rw [if_neg fun h => empty ((same_empty_iff _).mp h)]
        refine (ih (fills.add binding.fill).1 ?_).trans ?_
        · rw [added, List.length_append, List.length_singleton]
          omega
        · rw [added, List.filter_cons_of_pos (by simp [empty]), List.map_cons, List.append_assoc,
            List.singleton_append]
  exact all table.bindings {} (by simpa using table.bounded)

section Run

variable (leds : LedActionSink)

theorem snapshots_snoc (run : List Execution) (e : Execution) :
    snapshots leds (run ++ [e]) = snapshots leds run ++
      ((Machine.after LedActionSink.execute leds run).execute e).2.toList := by
  rw [snapshots, Machine.trace_snoc, List.filterMap_append, List.filterMap_cons]
  cases ((Machine.after LedActionSink.execute leds run).execute e).2 <;> rfl

/-- The last snapshot shows the levels of the tables, also when it was rejected. -/
theorem snapshot_shows (run : List Execution) {snapshot : LightingCommand}
    (last : (snapshots leds run).getLast? = some snapshot) :
    ∃ transients epoch, snapshot = heldCommand
      (Machine.after LedActionSink.execute leds run).effects
      (Machine.after LedActionSink.execute leds run).fills transients epoch := by
  induction run using List.reverseRecOn with
  | nil => cases last
  | append_singleton run e ih =>
    rw [snapshots_snoc] at last
    rw [Machine.after_snoc]
    cases bound : (Machine.after LedActionSink.execute leds run).Binds e.command with
    | false =>
      rw [execute_unbound _ bound] at last ⊢
      exact ih (by simpa using last)
    | true =>
      have handed := execute_bound _ bound
      rw [handed, Option.toList_some, List.getLast?_concat] at last
      exact ⟨_, _, (Option.some.inj last).symm⟩

/-- Without rejections and within one epoch, the last snapshot is that of all the tables. -/
theorem snapshot_of_accepted {run : List Execution} {epoch : ℕ}
    (accepted : ∀ e ∈ run, e.accepted = true ∧ e.epoch = epoch) :
    (snapshots leds run).getLast? =
      if run.any fun e => leds.Binds e.command then
        some (heldCommand (Machine.after LedActionSink.execute leds run).effects
          (Machine.after LedActionSink.execute leds run).fills
          (Machine.after LedActionSink.execute leds run).transients epoch)
      else none := by
  induction run using List.reverseRecOn with
  | nil => rfl
  | append_singleton run e ih =>
    have before := ih fun e' he' => accepted e' (List.mem_append_left _ he')
    obtain ⟨haccepted, hepoch⟩ := accepted e (by simp)
    rw [snapshots_snoc, Machine.after_snoc, List.any_append, List.any_cons, List.any_nil,
      Bool.or_false, ← binds_run leds run]
    cases bound : (Machine.after LedActionSink.execute leds run).Binds e.command with
    | false =>
      rw [execute_unbound _ bound]
      simpa using before
    | true =>
      rw [execute_bound _ bound, Option.toList_some, List.getLast?_concat, Bool.or_true,
        if_pos rfl, execute_accepted _ haccepted, hepoch]

variable {run run' : List Execution}

/-- The last levels of an action are decided by its executions. -/
theorem onOffLevelOf_ofAction (action : ActionId) (run : List Execution) :
    onOffLevelOf action run = onOffLevelOf action (ofAction action run) := by
  unfold onOffLevelOf ofAction
  rw [List.filterMap_filter]
  congr 2
  funext e
  by_cases own : action = e.command.action <;> simp [own]

theorem fillLevelOf_ofAction (action : ActionId) (run : List Execution) :
    fillLevelOf action run = fillLevelOf action (ofAction action run) := by
  unfold fillLevelOf ofAction
  rw [List.filterMap_filter]
  congr 2
  funext e
  by_cases own : action = e.command.action <;> simp [own]

/-- Tables with the same bindings are equal. -/
theorem Table.ext_bindings {capacity : ℕ} {table table' : Table Binding capacity}
    (same : table.bindings = table'.bindings) : table = table' := by
  cases table
  cases table'
  congr

/-- Two runs that agree on the last levels of each action leave the same levels. -/
theorem tables_of_levels
    (levels : ∀ action, onOffLevelOf action run = onOffLevelOf action run' ∧
      fillLevelOf action run = fillLevelOf action run') :
    (Machine.after LedActionSink.execute leds run).effects =
        (Machine.after LedActionSink.execute leds run').effects ∧
      (Machine.after LedActionSink.execute leds run).fills =
        (Machine.after LedActionSink.execute leds run').fills := by
  constructor
  · refine Table.ext_bindings ?_
    rw [effects_run, effects_run]
    exact List.map_congr_left fun binding _ => by rw [(levels binding.action).1]
  · refine Table.ext_bindings ?_
    rw [fills_run, fills_run]
    exact List.map_congr_left fun binding _ => by rw [(levels binding.action).2]

theorem SameByAction.levels (same : SameByAction run run') (action : ActionId) :
    onOffLevelOf action run = onOffLevelOf action run' ∧
      fillLevelOf action run = fillLevelOf action run' := by
  rw [onOffLevelOf_ofAction, fillLevelOf_ofAction, same action, ← onOffLevelOf_ofAction,
    ← fillLevelOf_ofAction]
  exact ⟨rfl, rfl⟩

theorem SameByAction.mem_iff (same : SameByAction run run') (e : Execution) :
    e ∈ run ↔ e ∈ run' := by
  have own := congrArg (e ∈ ·) (same e.command.action)
  simpa [ofAction] using own

/-- **Reordering the commands of different actions** leaves the last snapshot as it is. -/
theorem SameByAction.snapshot (same : SameByAction run run') {epoch : ℕ}
    (accepted : ∀ e ∈ run, e.accepted = true ∧ e.epoch = epoch) :
    (snapshots leds run).getLast? = (snapshots leds run').getLast? := by
  have accepted' : ∀ e ∈ run', e.accepted = true ∧ e.epoch = epoch :=
    fun e he => accepted e ((same.mem_iff e).mpr he)
  obtain ⟨effects, fills⟩ := tables_of_levels leds same.levels
  have transients : (Machine.after LedActionSink.execute leds run).transients =
      (Machine.after LedActionSink.execute leds run').transients := by
    refine Table.ext_bindings ?_
    rw [transients_run leds fun e he => (accepted e he).1,
      transients_run leds fun e he => (accepted' e he).1]
    exact List.map_congr_left fun binding _ => by rw [same binding.action]
  have bound : (run.any fun e => leds.Binds e.command) =
      run'.any fun e => leds.Binds e.command := by
    rw [Bool.eq_iff_iff, List.any_eq_true, List.any_eq_true]
    exact exists_congr fun e => and_congr_left fun _ => same.mem_iff e
  rw [snapshot_of_accepted leds accepted, snapshot_of_accepted leds accepted', effects, fills,
    transients, bound]

end Run

/-- **The snapshot is a function of the levels**, for any tables, any run of commands and any
answers of the lighting sink. An effect binding has the level of the last Activate or Deactivate
of its action, and a fill binding that of the last command of its action that is no trigger; the
last snapshot shows these levels, and runs that agree on them show the same effects, priorities
and fills. A snapshot lists the fills of the bindings with a level that is not zero, and no other.
An execution of an action that nothing is bound to changes no binding and hands nothing over, and
the levels of an execution do not depend on whether its snapshot is rejected. Runs that agree on
the commands of each action, whatever their interleaving, end with the same levels and, within one
epoch and without rejections, with the same snapshot. -/
theorem snapshot_of_levels (leds : LedActionSink) (run : List Execution) :
    let final := Machine.after LedActionSink.execute leds run
    (final.effects.bindings = leds.effects.bindings.map fun binding =>
      { binding with active := (onOffLevelOf binding.action run).getD binding.active }) ∧
    (final.fills.bindings = leds.fills.bindings.map fun binding =>
      { binding with level := (fillLevelOf binding.action run).getD binding.level }) ∧
    (∀ snapshot, (snapshots leds run).getLast? = some snapshot →
      (⟨snapshot.leftTurn, snapshot.rightTurn, snapshot.brake⟩ : LedEffects) =
          EffectBindings.lit final.effects ∧
        snapshot.priorities = EffectBindings.priorities final.effects ∧
        snapshot.fills.fills = (final.fills.bindings.filter fun binding =>
          binding.level.numerator ≠ 0).map FillBinding.fill ∧
        ∀ fill ∈ snapshot.fills.fills, fill.level.numerator ≠ 0) ∧
    (∀ e : Execution, (∀ binding ∈ final.effects.bindings, binding.action ≠ e.command.action) →
      (∀ binding ∈ final.fills.bindings, binding.action ≠ e.command.action) →
      (∀ binding ∈ final.transients.bindings, binding.action ≠ e.command.action) →
      final.execute e = (final, none)) ∧
    (∀ (e : Execution) (answer : Bool),
      (final.execute { e with accepted := answer }).1.effects = (final.execute e).1.effects ∧
        (final.execute { e with accepted := answer }).1.fills = (final.execute e).1.fills) ∧
    ∀ run' : List Execution,
      let final' := Machine.after LedActionSink.execute leds run'
      ((∀ action, onOffLevelOf action run = onOffLevelOf action run' ∧
          fillLevelOf action run = fillLevelOf action run') →
        final.effects = final'.effects ∧ final.fills = final'.fills) ∧
      (SameByAction run run' →
        final.effects = final'.effects ∧ final.fills = final'.fills ∧
        ∀ epoch, (∀ e ∈ run, e.accepted = true ∧ e.epoch = epoch) →
          (snapshots leds run).getLast? = (snapshots leds run').getLast?) := by
  intro final
  refine ⟨effects_run leds run, fills_run leds run, fun snapshot last => ?_,
    fun e noEffect noFill noTransient => ?_, fun e answer => ?_, fun run' => ⟨?_, ?_⟩⟩
  · obtain ⟨transients, epoch, rfl⟩ := snapshot_shows leds run last
    have fills := lit_fills final.fills
    refine ⟨rfl, rfl, fills, fun fill hfill => ?_⟩
    obtain ⟨binding, hbinding, rfl⟩ := List.mem_map.mp (fills ▸ hfill)
    show binding.level.numerator ≠ 0
    simpa using (List.mem_filter.mp hbinding).2
  · refine execute_unbound final ?_
    have effects : (final.effects.bindings.any fun b => b.action == e.command.action) = false :=
      List.any_eq_false.mpr fun b hb => by simpa using noEffect b hb
    have fills : (final.fills.bindings.any fun b => b.action == e.command.action) = false :=
      List.any_eq_false.mpr fun b hb => by simpa using noFill b hb
    have transients :
        (final.transients.bindings.any fun b => b.action == e.command.action) = false :=
      List.any_eq_false.mpr fun b hb => by simpa using noTransient b hb
    simp only [LedActionSink.Binds, effects, fills, transients, Bool.and_false, Bool.or_false]
  · obtain ⟨effects, fills⟩ := execute_tables final e
    obtain ⟨effects', fills'⟩ := execute_tables final { e with accepted := answer }
    exact ⟨effects'.trans effects.symm, fills'.trans fills.symm⟩
  · exact tables_of_levels leds
  · intro same
    obtain ⟨effects, fills⟩ := tables_of_levels leds same.levels
    exact ⟨effects, fills, fun epoch accepted => same.snapshot leds accepted⟩

/-- The brake light on one action, and a flash on another. -/
def brakeAndFlash : LedActionSink :=
  ((LedActionSink.bindEffect {} ⟨1⟩ .brake {}).1.bindTransient ⟨2⟩
    { zone := ⟨0, 10, .startToEnd⟩, durationUs := 1000 } kDefaultLedCount).1

/-- The brake goes on, and the snapshot of that is rejected. -/
def rejectedBrake : Execution :=
  { command := { action := ⟨1⟩, kind := .activate }, accepted := false }

def flash : Execution := { command := { action := ⟨2⟩, kind := .trigger } }

def brakeOff : Execution := { command := { action := ⟨1⟩, kind := .deactivate } }

/-- An execution whose snapshot is rejected has recorded its level, and has retired the starts
before it, so that a start which another order puts after it is in the last snapshot. -/
theorem rejected_level_recorded :
    (¬ ∀ (leds : LedActionSink) (e : Execution), (leds.execute e).2.isSome = true →
      e.accepted = false → (leds.execute e).1.effects.bindings = leds.effects.bindings) ∧
    ¬ ∀ (leds : LedActionSink) (run run' : List Execution), SameByAction run run' →
      (snapshots leds run).getLast?.map (·.transients.starts) =
        (snapshots leds run').getLast?.map (·.transients.starts) := by
  constructor
  · intro unchanged
    have same := unchanged brakeAndFlash rejectedBrake (by decide) rfl
    exact absurd same (by decide)
  · intro reordered
    have same := reordered brakeAndFlash [flash, rejectedBrake, brakeOff]
      [rejectedBrake, flash, brakeOff] ?_
    · exact absurd same (by decide)
    · intro action
      by_cases brake : action = ⟨1⟩
      · rw [brake]
        decide
      · simp [ofAction, List.filter_cons, flash, rejectedBrake, brakeOff, brake]

end AccessoryController.LocalArgbActions
