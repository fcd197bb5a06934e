import AccessoryController.ActionEngine.Rules
import AccessoryController.Library.Machine

/-!
# The action engine

One provider, bounded sets of rules and a bounded set of sinks. The provider's answers to
subscriptions and reads are inputs. The engine evaluates rules under one lock, on notices and on
polled reads; a polled read happens outside the lock, so notices may be evaluated between the
rules of one sampling. The calls below are therefore the critical sections of the source.

## Main definitions

* `Engine`: sinks, rules, polled rules, live registrations and the attachment
* `Engine.addStateRule`, `addEventRule`, `addRangeRule`, `addSampledStateRule`: the builder
* `Engine.attach`, `detach`: the lifecycle
* `Engine.notice`, `sampleNext`: the evaluations
* `Engine.step`: one call on the engine
-/

namespace AccessoryController.ActionEngine

open VehicleSignals

/-- A borrowed sink, by its address. -/
abbrev Sink := ℕ

def kMaxSinks : ℕ := 4

def kMaxRules : ℕ := 16

def kMaxPolledRules : ℕ := 8

/-- A live provider registration with the provider's token. -/
structure Registration where
  signal : SignalId := {}
  subscription : ℕ := 0
  deriving DecidableEq, Repr

/-- The provider's answers during one call: to the subscription for the rule that `n` rules
follow, and to the removal of the registration that `n` registrations precede. -/
structure ProviderAnswers where
  subscribe : ℕ → SignalResult ℕ
  unsubscribe : ℕ → SignalStatus

/-! ### Registrations -/

/-- Registers a signal once. Registrations are kept newest first. -/
def subscribe (answer : SignalResult ℕ) (signal : SignalId) (registrations : List Registration) :
    SignalStatus × List Registration :=
  if registrations.any fun registration => registration.signal == signal then (.ok, registrations)
  else if registrations.length = kMaxRules then (.capacityExceeded, registrations)
  else
    match answer.success? with
    | none => (answer.status, registrations)
    | some subscription => (.ok, ⟨signal, subscription⟩ :: registrations)

/-- Removes registrations, newest first, up to a failure. -/
def unsubscribeAll (answers : ProviderAnswers) : List Registration →
    SignalStatus × List Registration
  | [] => (.ok, [])
  | registration :: older =>
    if answers.unsubscribe older.length = .ok then unsubscribeAll answers older
    else (answers.unsubscribe older.length, registration :: older)

/-- Registers the signals of the rules in order, up to a failure. -/
def subscribeRules (answers : ProviderAnswers) : List Rule → List Registration →
    SignalStatus × List Registration
  | [], registrations => (.ok, registrations)
  | rule :: rules, registrations =>
    match subscribe (answers.subscribe rules.length) rule.signal registrations with
    | (.ok, registrations) => subscribeRules answers rules registrations
    | (status, registrations) => (status, registrations)

/-! ### The engine -/

/-- The engine. `sampling` is the index at which the sampling loop under way goes on. -/
structure Engine where
  sinks : List Sink := []
  rules : List Rule := []
  polledRules : List PolledRule := []
  registrations : List Registration := []
  attached : Bool := false
  sampling : Option ℕ := none
  deriving DecidableEq, Repr

namespace Engine

def addSink (e : Engine) (sink : Sink) : Engine × ConfigStatus :=
  if e.attached then (e, .invalidState)
  else if sink ∈ e.sinks then (e, .duplicateSink)
  else if e.sinks.length = kMaxSinks then (e, .capacityExceeded)
  else ({ e with sinks := e.sinks ++ [sink] }, .ok)

def clear (e : Engine) : Engine × ConfigStatus :=
  if e.attached then (e, .invalidState)
  else ({ e with sinks := [], rules := [], polledRules := [] }, .ok)

/-- A level rule already drives the action. -/
def drivesLevel (e : Engine) (action : ActionId) : Bool :=
  (e.rules.any fun rule => rule.levelAction == some action) ||
    e.polledRules.any fun rule => rule.action == action

/-- The refusal of an action for a new rule; `level` tells a level rule from a one-shot one. -/
def checkAction (e : Engine) (action : ActionId) (level : Bool) : ConfigStatus :=
  if e.attached then .invalidState
  else if ¬ action.valid then .invalidAction
  else if level && e.drivesLevel action then .duplicateAction
  else .ok

def resolveRule (catalog : SignalCatalogView) (e : Engine) (condition : SignalCondition)
    (action : ActionId) (freshness : FreshnessRequirement) (level : Bool) :
    Except ConfigStatus ResolvedCondition :=
  if e.checkAction action level ≠ .ok then .error (e.checkAction action level)
  else resolveCondition catalog condition freshness

def addRule (e : Engine) (rule : Rule) : Engine × ConfigStatus :=
  if e.rules.length = kMaxRules then (e, .capacityExceeded)
  else ({ e with rules := e.rules ++ [rule] }, .ok)

def addPolledRule (e : Engine) (rule : PolledRule) : Engine × ConfigStatus :=
  if e.polledRules.length = kMaxPolledRules then (e, .capacityExceeded)
  else ({ e with polledRules := e.polledRules ++ [rule] }, .ok)

def addStateRule (catalog : SignalCatalogView) (e : Engine) (config : StateRuleConfig) :
    Engine × ConfigStatus :=
  match e.resolveRule catalog config.condition config.action config.freshness true with
  | .error status => (e, status)
  | .ok condition => e.addRule (.state { condition, action := config.action })

def addEventRule (catalog : SignalCatalogView) (e : Engine) (config : EventRuleConfig) :
    Engine × ConfigStatus :=
  match e.resolveRule catalog config.condition config.action config.freshness false with
  | .error status => (e, status)
  | .ok condition =>
    e.addRule (.event { condition, action := config.action, edge := config.edge })

def addRangeRule (catalog : SignalCatalogView) (e : Engine) (config : RangeRuleConfig) :
    Engine × ConfigStatus :=
  if e.checkAction config.action true ≠ .ok then (e, e.checkAction config.action true)
  else
    match resolveRangeRule catalog config with
    | .error status => (e, status)
    | .ok rule => e.addPolledRule (.range rule)

/-- The release boundary lies on the far side of the activation boundary. -/
def hasValidReleaseThreshold (condition : SignalCondition) (releaseThreshold : Binary32) : Bool :=
  match condition.operand.asNumber with
  | none => false
  | some activationThreshold =>
    if !activationThreshold.isFinite || !releaseThreshold.isFinite then false
    else
      match condition.comparison with
      | .greater | .greaterOrEqual => releaseThreshold.lt activationThreshold
      | .less | .lessOrEqual => activationThreshold.lt releaseThreshold
      | .equal | .notEqual | .unknown _ => false

def addSampledStateRule (catalog : SignalCatalogView) (e : Engine)
    (config : SampledStateRuleConfig) : Engine × ConfigStatus :=
  if e.checkAction config.action true ≠ .ok then (e, e.checkAction config.action true)
  else
    match resolveSampledCondition catalog config.condition config.freshness with
    | .error status => (e, status)
    | .ok activationCondition =>
      match config.releaseThreshold with
      | none =>
        e.addPolledRule (.sampledState { activationCondition, action := config.action })
      | some releaseThreshold =>
        if !hasValidReleaseThreshold config.condition releaseThreshold then
          (e, .invalidHysteresis)
        else
          match resolveSampledCondition catalog
              { config.condition with operand := .number releaseThreshold } config.freshness with
          | .error status => (e, status)
          | .ok releaseCondition =>
            e.addPolledRule (.sampledState {
              activationCondition
              releaseCondition := some releaseCondition
              action := config.action })

/-- Forgets the memory of every rule. -/
def resetRules (e : Engine) : Engine :=
  { e with rules := e.rules.map Rule.reset, polledRules := e.polledRules.map PolledRule.reset }

/-- Resets the rules and subscribes them. A failed subscription is rolled back; a failed rollback
leaves the engine attached. -/
def attach (answers : ProviderAnswers) (e : Engine) : Engine × SignalStatus :=
  if e.attached then (e, .invalidState)
  else
    match subscribeRules answers e.rules e.registrations with
    | (.ok, registrations) =>
      ({ e.resetRules with registrations := registrations, attached := true }, .ok)
    | (status, registrations) =>
      let rollback := unsubscribeAll answers registrations
      ({ e.resetRules with registrations := rollback.2, attached := rollback.1 != .ok }, status)

def detach (answers : ProviderAnswers) (e : Engine) : Engine × SignalStatus :=
  if !e.attached then (e, .invalidState)
  else
    let removal := unsubscribeAll answers e.registrations
    ({ e with registrations := removal.2, attached := removal.1 != .ok }, removal.1)

/-- The evaluation of a notice: the rules in order, with the commands they send. -/
def notice (e : Engine) (n : SignalNotification) : Engine × List ActionCommand :=
  ({ e with rules := e.rules.map fun rule => (rule.onNotice n).1 },
    e.rules.filterMap fun rule => (rule.onNotice n).2)

/-- The start of a sampling of the polled rules. -/
def samplePolledRules (e : Engine) : Engine × SignalStatus :=
  if !e.attached then (e, .invalidState) else ({ e with sampling := some 0 }, .ok)

/-- One round of the sampling loop: the rule at the index evaluates the read of its signal, and
the loop ends at the last rule. -/
def sampleNext (e : Engine) (read : Read) : Engine × List ActionCommand :=
  match e.sampling with
  | none => (e, [])
  | some index =>
    match e.polledRules[index]? with
    | none => ({ e with sampling := none }, [])
    | some rule =>
      ({ e with
          polledRules := e.polledRules.set index (rule.onSample read).1
          sampling := some (index + 1) },
        (rule.onSample read).2.toList)

end Engine

/-! ### The engine as a machine -/

/-- The calls that reach an engine: configuration, the provider's lifecycle owner, the provider's
dispatcher and the sampling context. -/
inductive Call
  | addSink (sink : Sink)
  | clear
  | addStateRule (config : StateRuleConfig)
  | addEventRule (config : EventRuleConfig)
  | addRangeRule (config : RangeRuleConfig)
  | addSampledStateRule (config : SampledStateRuleConfig)
  | attach (answers : ProviderAnswers)
  | detach (answers : ProviderAnswers)
  | notice (notice : SignalNotification)
  | samplePolledRules
  | sampleNext (read : Read)

/-- The answer of a call, with the commands that the rules emitted. -/
inductive Answer
  | config (status : ConfigStatus)
  | lifecycle (status : SignalStatus)
  | evaluated (commands : List ActionCommand)

def Answer.commands : Answer → List ActionCommand
  | .evaluated commands => commands
  | _ => []

/-- One call on an engine. -/
def Engine.step (catalog : SignalCatalogView) (e : Engine) : Call → Engine × Answer
  | .addSink sink => (e.addSink sink).map id .config
  | .clear => e.clear.map id .config
  | .addStateRule config => (e.addStateRule catalog config).map id .config
  | .addEventRule config => (e.addEventRule catalog config).map id .config
  | .addRangeRule config => (e.addRangeRule catalog config).map id .config
  | .addSampledStateRule config => (e.addSampledStateRule catalog config).map id .config
  | .attach answers => (e.attach answers).map id .lifecycle
  | .detach answers => (e.detach answers).map id .lifecycle
  | .notice n => (e.notice n).map id .evaluated
  | .samplePolledRules => e.samplePolledRules.map id .lifecycle
  | .sampleNext read => (e.sampleNext read).map id .evaluated

/-- The fan-out of a command: every sink executes it, in the order of registration. -/
def execute (sinks : List Sink) (command : ActionCommand) : List (Sink × ActionCommand) :=
  sinks.map fun sink => (sink, command)

end AccessoryController.ActionEngine
