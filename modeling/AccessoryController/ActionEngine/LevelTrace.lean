import AccessoryController.ActionEngine.Ownership
import AccessoryController.Library.History

/-!
# The trace of a level rule

The log of an attached engine is the list of its calls since it was attached, each with the engine
that it met. The commands of a level action come from the one rule that drives it, so the last of
them is what that rule remembers, which is its semantic output.

## Main definitions

* `sinceAttach log`: the calls since the last attachment
* `noticeEmission`, `readEmission`: the command that a rule emits on a call
* `emitted`, `executed`: the commands that all rules emitted, and that a sink executed
* `levels action commands`: the commands among these that set the level of an action
* `Follows e log`: an attached engine agrees with its log

## Main results

* `follows_notice`, `follows_sampleNext`, `Follows.quiet`: one call keeps the agreement
* `level_rule_trace_law`: the law of every run
-/

namespace AccessoryController.ActionEngine

open VehicleSignals History Rule

/-- The log of an engine: its calls, each with the engine that it met. -/
abbrev Log := List (Engine × Call)

/-- The calls since the last attachment of a detached engine. -/
def sinceAttach (log : Log) : Log :=
  log.foldl (fun recent move =>
    match move with
    | (e, .attach answers) => if e.attached then recent ++ [(e, .attach answers)] else []
    | move => recent ++ [move]) []

/-- The readings that the notices of a signal carried. -/
def noticesOf (signal : SignalId) : Log → List SignalReading :=
  List.filterMap fun
    | (_, .notice n) => if n.id = signal then some n.current else none
    | _ => none

/-- The reads that the polled rule at an index evaluated. -/
def readsOf (index : ℕ) : Log → List Read :=
  List.filterMap fun
    | (e, .sampleNext read) => if e.sampling = some index then some read else none
    | _ => none

/-- The command that the rule at an index emits on a notice. -/
def noticeEmission (index : ℕ) : Engine × Call → Option ActionCommand
  | (e, .notice n) => e.rules[index]?.bind fun rule => (rule.onNotice n).2
  | _ => none

/-- The command that the polled rule at an index emits when the sampling loop is at it. -/
def readEmission (index : ℕ) : Engine × Call → Option ActionCommand
  | (e, .sampleNext read) =>
    if e.sampling = some index then e.polledRules[index]?.bind fun rule => (rule.onSample read).2
    else none
  | _ => none

/-- The commands that set the level of an action. -/
def levels (action : ActionId) (commands : List ActionCommand) : List ActionCommand :=
  commands.filter fun command => command.action == action && command.kind != .trigger

@[simp] theorem levels_append (action : ActionId) (commands commands' : List ActionCommand) :
    levels action (commands ++ commands') = levels action commands ++ levels action commands' :=
  List.filter_append ..

@[simp] theorem noticesOf_append (signal : SignalId) (log log' : Log) :
    noticesOf signal (log ++ log') = noticesOf signal log ++ noticesOf signal log' :=
  List.filterMap_append

@[simp] theorem readsOf_append (index : ℕ) (log log' : Log) :
    readsOf index (log ++ log') = readsOf index log ++ readsOf index log' :=
  List.filterMap_append

variable {action : ActionId} {call : Call}

/-- Commands that are all level commands of one action. -/
theorem levels_of_owner {emission : Option ActionCommand}
    (h : ∀ command ∈ emission, command.action = action ∧ command.kind ≠ .trigger) :
    levels action emission.toList = emission.toList := by
  refine List.filter_eq_self.mpr fun command hmem => ?_
  obtain ⟨haction, hkind⟩ := h command (Option.mem_toList.mp hmem)
  simp [haction, hkind]

theorem levels_eq_nil {commands : List ActionCommand}
    (h : ∀ command ∈ commands, command.action = action → command.kind = .trigger) :
    levels action commands = [] := by
  refine List.filter_eq_nil_iff.mpr fun command hmem => ?_
  intro hlevel
  simp only [Bool.and_eq_true, beq_iff_eq, bne_iff_ne] at hlevel
  exact hlevel.2 (h command hmem hlevel.1)

section Emissions

/-- A rule on notices emits level commands of the action that it drives, and triggers. -/
theorem Rule.emission {rule : Rule} {notice : SignalNotification} {command : ActionCommand}
    (h : command ∈ (rule.onNotice notice).2) (level : command.kind ≠ .trigger) :
    rule.levelAction = some command.action := by
  unfold onNotice at h
  split at h
  · cases h
  · cases rule with
    | state rule =>
      have haction := (rule.emits_onNotice notice).level command h
      rw [haction.1]
      rfl
    | event rule =>
      change command ∈ (rule.onNotice notice).2 at h
      unfold EventRule.onNotice at h
      rw [Option.mem_def, Option.ite_none_right_eq_some] at h
      obtain rfl := Option.some.inj h.2
      exact absurd rfl level

/-- A notice sets only levels that rules on notices drive. -/
theorem levels_notice_of_not_driven {rules : List Rule}
    (h : ∀ rule ∈ rules, rule.levelAction ≠ some action) (n : SignalNotification) :
    levels action (rules.filterMap fun rule => (rule.onNotice n).2) = [] := by
  refine levels_eq_nil fun command hmem haction => ?_
  obtain ⟨rule, hrule, hcommand⟩ := List.mem_filterMap.mp hmem
  by_contra hlevel
  refine h rule hrule ?_
  rw [← haction]
  exact emission hcommand hlevel

/-- **A notice sets a level** by the evaluation of the one rule that drives it. -/
theorem levels_notice {rules : List Rule} (nodup : (rules.filterMap levelAction).Nodup)
    {rule : StateRule} (hrule : state rule ∈ rules) (n : SignalNotification) :
    levels rule.action (rules.filterMap fun rule => (rule.onNotice n).2) =
      ((state rule).onNotice n).2.toList := by
  obtain ⟨earlier, later, rfl⟩ := List.append_of_mem hrule
  have haction : (state rule).levelAction = some rule.action := rfl
  rw [List.filterMap_append, List.filterMap_cons_some haction] at nodup
  obtain ⟨-, hlater, hdisjoint⟩ := List.nodup_append.mp nodup
  have hearlier : ∀ rule' ∈ earlier, rule'.levelAction ≠ some rule.action := by
    intro rule' hmem heq
    exact hdisjoint rule.action (List.mem_filterMap.mpr ⟨rule', hmem, heq⟩) rule.action
      List.mem_cons_self rfl
  have hlate : ∀ rule' ∈ later, rule'.levelAction ≠ some rule.action := by
    intro rule' hmem heq
    exact (List.nodup_cons.mp hlater).1 (List.mem_filterMap.mpr ⟨rule', hmem, heq⟩)
  have own : levels rule.action ((state rule).onNotice n).2.toList =
      ((state rule).onNotice n).2.toList := by
    refine levels_of_owner ?_
    unfold onNotice
    split
    · exact fun _ h => (Option.not_mem_none _ h).elim
    · exact (rule.emits_onNotice n).level
  have split : (earlier ++ state rule :: later).filterMap (fun rule => (rule.onNotice n).2) =
      earlier.filterMap (fun rule => (rule.onNotice n).2) ++
        (((state rule).onNotice n).2.toList ++
          later.filterMap fun rule => (rule.onNotice n).2) := by
    rw [List.filterMap_append, List.filterMap_cons]
    cases ((state rule).onNotice n).2 <;> rfl
  rw [split, levels_append, levels_append, own, levels_notice_of_not_driven hearlier,
    levels_notice_of_not_driven hlate, List.append_nil, List.nil_append]

end Emissions

/-! ### The agreement of an engine with its log -/

section Law

variable (catalog : SignalCatalogView)

/-- The commands that the rules emitted on a call. -/
def commandsOf (move : Engine × Call) : List ActionCommand :=
  (move.1.step catalog move.2).2.commands

/-- The commands that the rules emitted. -/
def emitted (log : Log) : List ActionCommand := log.flatMap (commandsOf catalog)

/-- The commands that a sink executed. -/
def executed (sink : Sink) (log : Log) : List ActionCommand :=
  log.flatMap fun move => ((commandsOf catalog move).flatMap (execute move.1.sinks)).filterMap
    fun execution => if execution.1 = sink then some execution.2 else none

/-- The log of one level rule, by what it emits on a call: its commands are those that set the
level of its action, it remembers the last of them, and repeats it only where it may. -/
structure Traced (action : ActionId) (emission : Engine × Call → Option ActionCommand)
    (mayRepeat : Engine × Call → Prop) (remembered : Option ActionCommand) (log : Log) : Prop where
  own : levels action (emitted catalog log) = log.filterMap emission
  last : (log.filterMap emission).getLast? = remembered
  repeats : Lawful (fun before move => ∀ command ∈ emission move,
    ∀ prior ∈ (before.filterMap emission).getLast?, prior.eq command = true → mayRepeat move) log

/-- The call delivers an initial notice. -/
def initialNotice (move : Engine × Call) : Prop := ∃ n, move.2 = .notice n ∧ n.initial = true

/-- An attached engine agrees with its log. -/
structure Follows (e : Engine) (log : Log) : Prop where
  state : ∀ index (rule : StateRule), e.rules[index]? = some (.state rule) →
    Traced catalog rule.action (noticeEmission index) initialNotice rule.remembered log ∧
      rule.remembered = (noticesOf rule.signal log).getLast?.map rule.output
  polled : ∀ index (rule : PolledRule), e.polledRules[index]? = some rule →
    Traced catalog rule.action (readEmission index) (fun _ => False) rule.remembered log ∧
      rule.Remembers (readsOf index log)
  sinks : ∀ move ∈ log, move.1.sinks = e.sinks

variable {catalog} {e : Engine} {log : Log}

theorem emitted_snoc (move : Engine × Call) :
    emitted catalog (log ++ [move]) = emitted catalog log ++ commandsOf catalog move := by
  simp [emitted]

section Traced

variable {action : ActionId} {emission : Engine × Call → Option ActionCommand}
  {mayRepeat : Engine × Call → Prop} {remembered remembered' : Option ActionCommand}

theorem traced_nil : Traced catalog action emission mayRepeat none [] :=
  ⟨rfl, rfl, lawful_nil _⟩

/-- One evaluation of a rule extends its log. -/
theorem Traced.snoc {move : Engine × Call}
    (traced : Traced catalog action emission mayRepeat remembered log)
    (emits : Emits action remembered (emission move) remembered' (mayRepeat move))
    (own : levels action (commandsOf catalog move) = (emission move).toList) :
    Traced catalog action emission mayRepeat remembered' (log ++ [move]) := by
  have extended : (log ++ [move]).filterMap emission =
      log.filterMap emission ++ (emission move).toList := by
    rw [List.filterMap_append, List.filterMap_cons]
    cases emission move <;> rfl
  refine ⟨?_, ?_, lawful_snoc.mpr ⟨traced.repeats, fun command hcommand prior hprior => ?_⟩⟩
  · rw [emitted_snoc, levels_append, own, traced.own, extended]
  · rw [extended, List.getLast?_append, traced.last, emits.remembers]
    cases emission move <;> rfl
  · rw [traced.last] at hprior
    exact emits.changes command hcommand prior hprior

/-- A call on which a rule emits nothing, and no other rule sets its level. -/
theorem Traced.silent {move : Engine × Call}
    (traced : Traced catalog action emission mayRepeat remembered log)
    (quiet : emission move = none) (silent : levels action (commandsOf catalog move) = []) :
    Traced catalog action emission mayRepeat remembered (log ++ [move]) := by
  refine traced.snoc ?_ ?_
  · rw [quiet]
    exact .none _ _ _
  · rw [quiet, silent]
    rfl

end Traced

/-- An engine that was reset agrees with the empty log. -/
theorem follows_reset {e' : Engine} (rules : e'.rules = e.rules.map reset)
    (polledRules : e'.polledRules = e.polledRules.map PolledRule.reset) :
    Follows catalog e' [] := by
  refine ⟨fun index rule hrule => ?_, fun index rule hrule => ?_,
    fun _ h => absurd h List.not_mem_nil⟩
  · rw [rules, List.getElem?_map] at hrule
    obtain ⟨origin, -, horigin⟩ := Option.map_eq_some_iff.mp hrule
    cases origin with
    | state origin =>
      obtain rfl := state.inj horigin
      exact ⟨traced_nil, rfl⟩
    | event origin => cases horigin
  · rw [polledRules, List.getElem?_map] at hrule
    obtain ⟨origin, -, rfl⟩ := Option.map_eq_some_iff.mp hrule
    cases origin with
    | range origin => exact ⟨traced_nil, .none, trivial⟩
    | sampledState origin => exact ⟨traced_nil, .none, rfl⟩

theorem Follows.sinks_snoc (follows : Follows catalog e log) {e' : Engine}
    (sinks : e'.sinks = e.sinks) : ∀ move ∈ log ++ [(e, call)], move.1.sinks = e'.sinks := by
  intro move hmove
  rw [sinks]
  rcases List.mem_append.mp hmove with hmove | hmove
  · exact follows.sinks move hmove
  · rw [List.mem_singleton.mp hmove]

/-- A call without an evaluation keeps the agreement. -/
theorem Follows.quiet (follows : Follows catalog e log) {e' : Engine} (rules : e'.rules = e.rules)
    (polledRules : e'.polledRules = e.polledRules) (sinks : e'.sinks = e.sinks)
    (commands : commandsOf catalog (e, call) = [])
    (notices : ∀ index, noticeEmission index (e, call) = none)
    (noted : ∀ signal, noticesOf signal [(e, call)] = [])
    (reads : ∀ index rule, e.polledRules[index]? = some rule →
      readEmission index (e, call) = none ∧ readsOf index [(e, call)] = []) :
    Follows catalog e' (log ++ [(e, call)]) := by
  have silent : ∀ action, levels action (commandsOf catalog (e, call)) = [] := by
    intro action
    rw [commands]
    rfl
  refine ⟨fun index rule hrule => ?_, fun index rule hrule => ?_, follows.sinks_snoc sinks⟩
  · rw [rules] at hrule
    obtain ⟨traced, semantic⟩ := follows.state index rule hrule
    rw [noticesOf_append, noted, List.append_nil]
    exact ⟨traced.silent (notices index) (silent _), semantic⟩
  · rw [polledRules] at hrule
    obtain ⟨traced, remembers⟩ := follows.polled index rule hrule
    obtain ⟨emission, unread⟩ := reads index rule hrule
    rw [readsOf_append, unread, List.append_nil]
    exact ⟨traced.silent emission (silent _), remembers⟩

/-- The evaluation of a notice by a state rule of any signal. -/
theorem emits_onNotice_rule (rule : StateRule) (n : SignalNotification) :
    ∃ rule', ((state rule).onNotice n).1 = .state rule' ∧ rule'.action = rule.action ∧
      rule'.signal = rule.signal ∧ rule'.output = rule.output ∧
      Emits rule.action rule.remembered ((state rule).onNotice n).2 rule'.remembered
        (n.initial = true) ∧
      rule'.remembered =
        if n.id = rule.signal then some (rule.output n.current) else rule.remembered := by
  unfold onNotice
  by_cases hsignal : (state rule).signal = n.id
  · rw [if_neg (not_not.mpr hsignal)]
    have hsignal : n.id = rule.signal := hsignal.symm
    refine ⟨(rule.onNotice n).1, rfl, ?_, ?_, ?_, rule.emits_onNotice n, ?_⟩
    · rw [StateRule.onNotice_fst]
    · rw [StateRule.onNotice_fst]
      rfl
    · rw [StateRule.onNotice_fst]
      rfl
    · rw [StateRule.onNotice_fst, if_pos hsignal]
      rfl
  · rw [if_pos hsignal]
    refine ⟨rule, rfl, rfl, rfl, rfl, .none _ _ _, ?_⟩
    rw [if_neg fun h => hsignal h.symm]

/-- **A notice** keeps the agreement. -/
theorem follows_notice (wellFormed : WellFormed e) (follows : Follows catalog e log)
    (n : SignalNotification) :
    Follows catalog (e.notice n).1 (log ++ [(e, .notice n)]) := by
  obtain ⟨hrules, -, hdisjoint⟩ := List.nodup_append.mp wellFormed.owners
  have commands : commandsOf catalog (e, .notice n) =
      e.rules.filterMap fun rule => (rule.onNotice n).2 := rfl
  refine ⟨fun index rule' hrule' => ?_, fun index rule hrule => ?_, follows.sinks_snoc rfl⟩
  · change (e.rules.map fun rule => (rule.onNotice n).1)[index]? = some (.state rule') at hrule'
    rw [List.getElem?_map] at hrule'
    obtain ⟨origin, horigin, heq⟩ := Option.map_eq_some_iff.mp hrule'
    cases origin with
    | event rule =>
      unfold onNotice at heq
      split at heq <;> cases heq
    | state rule =>
      obtain ⟨traced, semantic⟩ := follows.state index rule horigin
      obtain ⟨rule'', hrule'', haction, hsignal, houtput, emits, hremembered⟩ :=
        emits_onNotice_rule rule n
      obtain rfl := state.inj (hrule''.symm.trans heq)
      have emission : noticeEmission index (e, .notice n) =
          ((state rule).onNotice n).2 := by
        simp [noticeEmission, horigin]
      rw [haction]
      constructor
      · refine traced.snoc ?_ ?_ <;> rw [emission]
        · refine ⟨emits.remembers, emits.level, fun command hcommand prior hprior heq => ?_⟩
          exact ⟨n, rfl, emits.changes command hcommand prior hprior heq⟩
        · exact levels_notice hrules (List.mem_of_getElem? horigin) n
      · rw [hremembered, hsignal, houtput, noticesOf_append]
        by_cases hid : n.id = rule.signal
        · simp [noticesOf, hid]
        · simp only [noticesOf, hid, List.filterMap_cons, List.filterMap_nil, if_false,
            List.append_nil]
          exact semantic
  · obtain ⟨traced, remembers⟩ := follows.polled index rule hrule
    have unread : readsOf index [(e, .notice n)] = [] := rfl
    rw [readsOf_append, unread, List.append_nil]
    refine ⟨traced.silent rfl ?_, remembers⟩
    refine levels_notice_of_not_driven (fun rule' hrule' heq => ?_) n
    exact hdisjoint rule.action (List.mem_filterMap.mpr ⟨rule', hrule', heq⟩) rule.action
      (List.mem_map_of_mem (List.mem_of_getElem? hrule)) rfl

/-- **A read** of the sampling loop keeps the agreement. -/
theorem follows_sampleNext (wellFormed : WellFormed e) (follows : Follows catalog e log)
    (read : Read) :
    Follows catalog (e.sampleNext read).1 (log ++ [(e, .sampleNext read)]) := by
  obtain ⟨-, hpolled, hdisjoint⟩ := List.nodup_append.mp wellFormed.owners
  have commands : commandsOf catalog (e, .sampleNext read) = (e.sampleNext read).2 := rfl
  have unread : ∀ index, e.sampling ≠ some index →
      readEmission index (e, .sampleNext read) = none ∧
        readsOf index [(e, .sampleNext read)] = [] := by
    intro index hindex
    simp [readEmission, readsOf, hindex]
  cases hsampling : e.sampling with
  | none =>
    have next : e.sampleNext read = (e, []) := by simp [Engine.sampleNext, hsampling]
    rw [next] at commands ⊢
    exact follows.quiet rfl rfl rfl commands (fun _ => rfl) (fun _ => rfl)
      fun index _ _ => unread index (by rw [hsampling]; simp)
  | some index =>
    cases hrule : e.polledRules[index]? with
    | none =>
      have next : e.sampleNext read = ({ e with sampling := none }, []) := by
        simp [Engine.sampleNext, hsampling, hrule]
      rw [next] at commands ⊢
      refine follows.quiet rfl rfl rfl commands (fun _ => rfl) (fun _ => rfl)
        fun index' rule' hrule' => unread index' fun heq => ?_
      rw [hsampling] at heq
      rw [← Option.some.inj heq, hrule] at hrule'
      cases hrule'
    | some rule =>
      have next : e.sampleNext read =
          ({ e with
              polledRules := e.polledRules.set index (rule.onSample read).1
              sampling := some (index + 1) }, (rule.onSample read).2.toList) := by
        simp [Engine.sampleNext, hsampling, hrule]
      rw [next] at commands ⊢
      have emits := rule.emits_onSample read
      have emission : readEmission index (e, .sampleNext read) = (rule.onSample read).2 := by
        simp [readEmission, hsampling, hrule]
      have silent : ∀ action, action ≠ rule.action →
          levels action (commandsOf catalog (e, .sampleNext read)) = [] := by
        intro action hne
        rw [commands]
        refine levels_eq_nil fun command hcommand haction => absurd ?_ hne
        rw [← haction, (emits.level command (Option.mem_toList.mp hcommand)).1]
      have hindex : index < e.polledRules.length := (List.getElem?_eq_some_iff.mp hrule).1
      obtain ⟨traced, remembers⟩ := follows.polled index rule hrule
      refine ⟨fun index' state hstate => ?_, fun index' rule' hrule' => ?_,
        follows.sinks_snoc rfl⟩
      · obtain ⟨traced', semantic⟩ := follows.state index' state hstate
        have unnoted : noticesOf state.signal [(e, .sampleNext read)] = [] := rfl
        rw [noticesOf_append, unnoted, List.append_nil]
        refine ⟨traced'.silent rfl (silent state.action fun heq => ?_), semantic⟩
        exact hdisjoint state.action
          (List.mem_filterMap.mpr ⟨_, List.mem_of_getElem? hstate, rfl⟩) rule.action
          (List.mem_map_of_mem (List.mem_of_getElem? hrule)) heq
      · dsimp only at hrule'
        by_cases hsame : index = index'
        · subst hsame
          rw [List.getElem?_set_self hindex] at hrule'
          obtain rfl := Option.some.inj hrule'
          have taken : readsOf index [(e, .sampleNext read)] = [read] := by
            simp [readsOf, hsampling]
          rw [PolledRule.action_onSample, readsOf_append, taken]
          constructor
          · refine traced.snoc ?_ ?_ <;> rw [emission]
            · exact emits
            · rw [commands]
              exact levels_of_owner emits.level
          · exact PolledRule.remembers_onSample
              (wellFormed.ranges rule (List.mem_of_getElem? hrule)) remembers read
        · rw [List.getElem?_set_ne hsame] at hrule'
          obtain ⟨traced', remembers'⟩ := follows.polled index' rule' hrule'
          have hsampling' : e.sampling ≠ some index' := by
            rw [hsampling]
            exact fun heq => hsame (Option.some.inj heq)
          rw [readsOf_append, (unread index' hsampling').2, List.append_nil]
          refine ⟨traced'.silent (unread index' hsampling').1
            (silent rule'.action fun heq => hsame ?_), remembers'⟩
          -- two rules that drive one action are at one index
          refine (List.getElem?_inj (i := index) (j := index') ?_ hpolled).mp ?_
          · rw [List.length_map]
            exact hindex
          · rw [List.getElem?_map, List.getElem?_map, hrule, hrule']
            exact congrArg some heq.symm

/-! ### Every call and every run -/

/-- The attachment of a detached engine starts a new log. -/
theorem sinceAttach_attach {answers : ProviderAnswers} (detached : e.attached = false) :
    sinceAttach (log ++ [(e, .attach answers)]) = [] := by
  simp [sinceAttach, detached]

theorem sinceAttach_snoc (attached : e.attached = true) :
    sinceAttach (log ++ [(e, call)]) = sinceAttach log ++ [(e, call)] := by
  rw [sinceAttach, List.foldl_append]
  cases call with
  | attach answers => simp [attached, sinceAttach]
  | _ => rfl

theorem Configured.attached {result : Engine × ConfigStatus} (configured : Configured e result) :
    result.1.attached = e.attached := by
  cases configured <;> rfl

/-- Configuration calls on an attached engine are refused. -/
theorem Configured.of_attached {result : Engine × ConfigStatus} (configured : Configured e result)
    (attached : e.attached = true) : result.1 = e := by
  cases configured with
  | refused _ => rfl
  | sink detached _ => exact absurd detached (by simp [attached])
  | cleared detached => exact absurd detached (by simp [attached])
  | rule detached _ => exact absurd detached (by simp [attached])
  | polled detached _ _ => exact absurd detached (by simp [attached])

theorem attached_sampleNext (read : Read) : (e.sampleNext read).1.attached = e.attached := by
  unfold Engine.sampleNext
  split
  · rfl
  · split <;> rfl

/-- Only `attach` attaches an engine. -/
theorem attached_step (detached : e.attached = false) (other : ∀ answers, call ≠ .attach answers) :
    (e.step catalog call).1.attached = false := by
  cases call with
  | attach answers => exact absurd rfl (other answers)
  | addSink sink => exact (configured_addSink sink).attached.trans detached
  | clear => exact configured_clear.attached.trans detached
  | addStateRule config => exact (configured_addStateRule config).attached.trans detached
  | addEventRule config => exact (configured_addEventRule config).attached.trans detached
  | addRangeRule config => exact (configured_addRangeRule config).attached.trans detached
  | addSampledStateRule config =>
    exact (configured_addSampledStateRule config).attached.trans detached
  | detach answers => simp [Engine.step, Engine.detach, detached]
  | notice n => exact detached
  | samplePolledRules => simp [Engine.step, Engine.samplePolledRules, detached]
  | sampleNext read => exact (attached_sampleNext read).trans detached

/-- **One call** keeps an attached engine in agreement with its log. -/
theorem follows_step (wellFormed : WellFormed e) (follows : Follows catalog e log)
    (attached : e.attached = true) (call : Call) :
    Follows catalog (e.step catalog call).1 (log ++ [(e, call)]) := by
  have configuration : ∀ {result : Engine × ConfigStatus}, Configured e result →
      commandsOf catalog (e, call) = [] → (∀ index, noticeEmission index (e, call) = none) →
      (∀ signal, noticesOf signal [(e, call)] = []) →
      (∀ index, readEmission index (e, call) = none ∧ readsOf index [(e, call)] = []) →
      Follows catalog result.1 (log ++ [(e, call)]) := by
    intro result configured commands notices noted reads
    rw [configured.of_attached attached]
    exact follows.quiet rfl rfl rfl commands notices noted fun index _ _ => reads index
  cases call with
  | addSink sink =>
    exact configuration (configured_addSink sink) rfl (fun _ => rfl) (fun _ => rfl)
      fun _ => ⟨rfl, rfl⟩
  | clear =>
    exact configuration configured_clear rfl (fun _ => rfl) (fun _ => rfl) fun _ => ⟨rfl, rfl⟩
  | addStateRule config =>
    exact configuration (configured_addStateRule config) rfl (fun _ => rfl) (fun _ => rfl)
      fun _ => ⟨rfl, rfl⟩
  | addEventRule config =>
    exact configuration (configured_addEventRule config) rfl (fun _ => rfl) (fun _ => rfl)
      fun _ => ⟨rfl, rfl⟩
  | addRangeRule config =>
    exact configuration (configured_addRangeRule config) rfl (fun _ => rfl) (fun _ => rfl)
      fun _ => ⟨rfl, rfl⟩
  | addSampledStateRule config =>
    exact configuration (configured_addSampledStateRule config) rfl (fun _ => rfl) (fun _ => rfl)
      fun _ => ⟨rfl, rfl⟩
  | attach answers =>
    have same : (e.step catalog (.attach answers)).1 = e := by
      simp [Engine.step, Engine.attach, attached]
    rw [same]
    exact follows.quiet rfl rfl rfl rfl (fun _ => rfl) (fun _ => rfl) fun _ _ _ => ⟨rfl, rfl⟩
  | detach answers =>
    change Follows catalog (e.detach answers).1 _
    unfold Engine.detach
    split <;> exact follows.quiet rfl rfl rfl rfl (fun _ => rfl) (fun _ => rfl)
      fun _ _ _ => ⟨rfl, rfl⟩
  | notice n => exact follows_notice wellFormed follows n
  | samplePolledRules =>
    change Follows catalog e.samplePolledRules.1 _
    unfold Engine.samplePolledRules
    split <;> exact follows.quiet rfl rfl rfl rfl (fun _ => rfl) (fun _ => rfl)
      fun _ _ _ => ⟨rfl, rfl⟩
  | sampleNext read => exact follows_sampleNext wellFormed follows read

/-- An attachment resets the rules, whether it succeeds or not. -/
theorem attach_of_detached (detached : e.attached = false) (answers : ProviderAnswers) :
    (e.attach answers).1.rules = e.rules.map reset ∧
      (e.attach answers).1.polledRules = e.polledRules.map PolledRule.reset := by
  unfold Engine.attach
  rw [if_neg (by simp [detached])]
  split <;> exact ⟨rfl, rfl⟩

/-- **The rule for attached engines**: let every call keep `I`. What holds of an engine and an
empty log right after an attachment, and is kept by every call on an attached engine, holds of an
attached engine and its log after every run. -/
theorem attached_moves {I : Engine → Prop} {P : Engine → Log → Prop} (start : I {})
    (step : ∀ e call, I e → I (e.step catalog call).1)
    (attach : ∀ e answers, I e → e.attached = false → P (e.attach answers).1 [])
    (keep : ∀ e log call, I e → e.attached = true → P e log →
      P (e.step catalog call).1 (log ++ [(e, call)])) (calls : List Call) :
    I (Machine.after (Engine.step catalog) {} calls) ∧
      ((Machine.after (Engine.step catalog) {} calls).attached = true →
        P (Machine.after (Engine.step catalog) {} calls)
          (sinceAttach (Machine.moves (Engine.step catalog) {} calls))) := by
  refine Machine.invariant_moves (P := fun (e : Engine) (log : Log) =>
    I e ∧ (e.attached = true → P e (sinceAttach log))) ⟨start, fun attached => ?_⟩ ?_ calls
  · cases attached
  · rintro e log call ⟨kept, holds⟩
    refine ⟨step e call kept, fun attached => ?_⟩
    by_cases before : e.attached = true
    · rw [sinceAttach_snoc before]
      exact keep e _ call kept before (holds before)
    · rw [Bool.not_eq_true] at before
      by_cases hattach : ∃ answers, call = .attach answers
      · obtain ⟨answers, rfl⟩ := hattach
        rw [sinceAttach_attach before]
        exact attach e answers kept before
      · have still := @attached_step _ catalog _ before
          fun answers heq => hattach ⟨answers, heq⟩
        rw [still] at attached
        cases attached

theorem wellFormed_and_follows_after (catalog : SignalCatalogView) (calls : List Call) :
    WellFormed (Machine.after (Engine.step catalog) {} calls) ∧
      ((Machine.after (Engine.step catalog) {} calls).attached = true →
        Follows catalog (Machine.after (Engine.step catalog) {} calls)
          (sinceAttach (Machine.moves (Engine.step catalog) {} calls))) := by
  refine attached_moves (I := WellFormed) (P := Follows catalog)
    ⟨List.nodup_nil, List.nodup_nil, fun _ h => absurd h List.not_mem_nil⟩
    (fun _ call wellFormed => wellFormed_step catalog wellFormed call) ?_ ?_ calls
  · intro e answers _ detached
    obtain ⟨rules, polledRules⟩ := attach_of_detached detached answers
    exact follows_reset rules polledRules
  · exact fun _ _ call wellFormed attached follows =>
      follows_step wellFormed follows attached call

/-- A sink that is registered once executes every command once. -/
theorem executions_registered {sinks : List Sink} (nodup : sinks.Nodup) {sink : Sink}
    (registered : sink ∈ sinks) (commands : List ActionCommand) :
    (commands.flatMap (execute sinks)).filterMap (fun execution =>
      if execution.1 = sink then some execution.2 else none) = commands := by
  have none_of : ∀ (sinks : List Sink) (command : ActionCommand),
      (∀ other ∈ sinks, other ≠ sink) →
      (execute sinks command).filterMap (fun execution =>
        if execution.1 = sink then some execution.2 else none) = [] := by
    intro sinks command hne
    rw [List.filterMap_eq_nil_iff]
    intro execution hexecution
    obtain ⟨other, hother, rfl⟩ := List.mem_map.mp hexecution
    exact if_neg (hne other hother)
  obtain ⟨earlier, later, rfl⟩ := List.append_of_mem registered
  obtain ⟨-, hlater, hdisjoint⟩ := List.nodup_append.mp nodup
  have hearlier : ∀ other ∈ earlier, other ≠ sink := fun other hother =>
    hdisjoint other hother sink List.mem_cons_self
  have hlate : ∀ other ∈ later, other ≠ sink := fun other hother heq =>
    (List.nodup_cons.mp hlater).1 (heq ▸ hother)
  induction commands with
  | nil => rfl
  | cons command commands ih =>
    have split : execute (earlier ++ sink :: later) command =
        execute earlier command ++ (sink, command) :: execute later command := by
      simp [execute]
    rw [List.flatMap_cons, List.filterMap_append, ih, split, List.filterMap_append,
      none_of earlier command hearlier, List.filterMap_cons, none_of later command hlate,
      if_pos rfl]
    rfl

/-- A sink that is not registered executes nothing. -/
theorem executions_unregistered {sinks : List Sink} {sink : Sink} (unregistered : sink ∉ sinks)
    (commands : List ActionCommand) :
    (commands.flatMap (execute sinks)).filterMap (fun execution =>
      if execution.1 = sink then some execution.2 else none) = [] := by
  rw [List.filterMap_eq_nil_iff]
  intro execution hexecution
  obtain ⟨command, -, hcommand⟩ := List.mem_flatMap.mp hexecution
  obtain ⟨other, hother, rfl⟩ := List.mem_map.mp hcommand
  refine if_neg ?_
  rintro rfl
  exact unregistered hother

/-- The sinks of an attached engine execute what the rules emit. -/
theorem executed_eq_emitted (wellFormed : WellFormed e) (follows : Follows catalog e log)
    {sink : Sink} (registered : sink ∈ e.sinks) :
    executed catalog sink log = emitted catalog log := by
  refine List.flatMap_congr fun move hmove => ?_
  rw [follows.sinks move hmove]
  exact executions_registered wellFormed.sinks registered _

end Law

/-- **The trace law of level rules.** After every run of calls in any order, each level action has
one owner, and a refused call changes nothing. In an attached engine, for each level rule and the
log since the attachment: the last command of the rule is its semantic output on the readings that
it has seen, which is fail-off if the latest one is not actionable; it repeats a command only in
response to an initial notice; and each sink has executed, as level commands of the action, exactly
the commands of the rule. -/
theorem level_rule_trace_law (catalog : SignalCatalogView) (calls : List Call) :
    let e := Machine.after (Engine.step catalog) {} calls
    let log := sinceAttach (Machine.moves (Engine.step catalog) {} calls)
    e.levelActions.Nodup ∧
    (∀ call status, (e.step catalog call).2 = .config status → status ≠ .ok →
      (e.step catalog call).1 = e) ∧
    (e.attached = true →
      (∀ index (rule : StateRule), e.rules[index]? = some (.state rule) →
        let commands := log.filterMap (noticeEmission index)
        commands.getLast? = (noticesOf rule.signal log).getLast?.map rule.output ∧
        (∀ reading, rule.condition.evaluate reading = none →
          rule.output reading = levelCommand rule.action false) ∧
        (∀ before move after, log = before ++ move :: after →
          ∀ command ∈ noticeEmission index move,
            ∀ prior ∈ (before.filterMap (noticeEmission index)).getLast?,
              prior.eq command = true → ∃ n, move.2 = .notice n ∧ n.initial = true) ∧
        ∀ sink ∈ e.sinks, levels rule.action (executed catalog sink log) = commands) ∧
      ∀ index (rule : PolledRule), e.polledRules[index]? = some rule →
        let commands := log.filterMap (readEmission index)
        SameCommand commands.getLast? (rule.output (readsOf index log)) ∧
        (∀ reads read, rule.Refuses read →
          rule.output (reads ++ [read]) = some (levelCommand rule.action false)) ∧
        (∀ before move after, log = before ++ move :: after →
          ∀ command ∈ readEmission index move,
            ∀ prior ∈ (before.filterMap (readEmission index)).getLast?,
              prior.eq command = false) ∧
        ∀ sink ∈ e.sinks, levels rule.action (executed catalog sink log) = commands) := by
  intro e log
  obtain ⟨wellFormed, attachedFollows⟩ := wellFormed_and_follows_after catalog calls
  refine ⟨wellFormed.owners, fun call status => refused_unchanged, fun attached => ?_⟩
  have follows : Follows catalog e log := attachedFollows attached
  refine ⟨fun index rule hrule => ?_, fun index rule hrule => ?_⟩
  · obtain ⟨traced, semantic⟩ := follows.state index rule hrule
    refine ⟨traced.last.trans semantic, fun _ => StateRule.output_of_refused, traced.repeats,
      fun sink registered => ?_⟩
    rw [executed_eq_emitted wellFormed follows registered, traced.own]
  · obtain ⟨traced, remembers⟩ := follows.polled index rule hrule
    refine ⟨?_, fun reads read refused => PolledRule.output_of_refused refused reads, ?_,
      fun sink registered => ?_⟩
    · rw [traced.last]
      exact remembers.1
    · intro before move after hsplit command hcommand prior hprior
      rw [Bool.eq_false_iff]
      exact traced.repeats before move after hsplit command hcommand prior hprior
    · rw [executed_eq_emitted wellFormed follows registered, traced.own]

end AccessoryController.ActionEngine
