import AccessoryController.ControllerConfig.Persisted.Validation

/-!
# Application of a persisted configuration

A validated configuration is applied to the output sink and to the detached engine: the output
bindings in order, then the sink itself, then the rules. The runtime identifier of an action is
its position in the document, counted from one. The first refusal ends the application.

## Main definitions

* `actionId`: the runtime identifier of a named action
* `bindOutput`, `addRule`: the application of one entry
* `applyControllerConfig`: the application of a document
-/

open AccessoryController.ControllerConfig (Bytes)

namespace AccessoryController.Persisted

open ActionEngine (ActionId ConfigStatus Engine RuleOperand SignalCondition Sink)
open LocalArgb (EffectPriority LightingTransient)
open LocalArgbActions (BindingStatus FillEffect LedActionSink)
open VehicleSignals (SignalCatalogView)

/-! ### Conversions -/

/-- An integer as an unsigned one of `width` bits. -/
def castUnsigned (width : ℕ) (value : ℤ) : ℕ := (value % 2 ^ width).toNat

def kMaxActionId : ℕ := 2 ^ 16 - 1

def actionId (config : ControllerConfig) (name : Bytes) : Option ActionId :=
  (config.actions.findIdx? fun action => action.name == name).map fun index =>
    ⟨(index + 1) % 2 ^ 16⟩

def Operand.apply : Operand → RuleOperand
  | .boolean value => .boolean value
  | .number value => .number value
  | .choice key => .choice key

def Condition.apply (condition : Condition) : SignalCondition :=
  ⟨condition.signalKey, condition.comparison, condition.operand.apply⟩

/-- The sizes of the target are 32 bits wide. -/
def LedZone.apply (zone : LedZone) : LocalArgb.LedZone :=
  ⟨castUnsigned 32 zone.start, castUnsigned 32 zone.length, zone.direction⟩

def Rgb.apply (color : Rgb) : LocalArgb.Rgb :=
  ⟨UInt8.ofNat (castUnsigned 8 color.red), UInt8.ofNat (castUnsigned 8 color.green),
    UInt8.ofNat (castUnsigned 8 color.blue)⟩

def applyPriority (value : ℤ) : EffectPriority := ⟨castUnsigned 8 value⟩

/-- The duration in microseconds. -/
def applyDuration (durationMs : ℤ) : ℕ := castUnsigned 64 durationMs * 1000 % 2 ^ 64

/-! ### Outputs -/

/-- Binds one output; a solid zone is a fill that is held full or empty. -/
def bindOutput (config : ControllerConfig) (leds : LedActionSink) (output : OutputBinding) :
    LedActionSink × BindingStatus :=
  match actionId config output.action with
  | none => (leds, .invalidAction)
  | some id =>
    match output with
    | .ledEffect binding => leds.bindEffect id binding.effect (applyPriority binding.priority)
    | .ledFill binding =>
      leds.bindFill id ⟨binding.zone.apply, binding.color.apply, applyPriority binding.priority⟩
    | .ledSolid binding =>
      leds.bindFill id ⟨binding.zone.apply, binding.color.apply, applyPriority binding.priority⟩
    | .ledTransient binding =>
      leds.bindTransient id
        ⟨binding.zone.apply, binding.color.apply, applyPriority binding.priority,
          applyDuration binding.durationMs⟩
        (castUnsigned 32 config.pixelCount)

/-! ### Rules -/

def addRule (catalog : SignalCatalogView) (config : ControllerConfig) (engine : Engine)
    (rule : Rule) : Engine × ConfigStatus :=
  match actionId config rule.action with
  | none => (engine, .invalidAction)
  | some id =>
    match rule with
    | .state rule => engine.addStateRule catalog ⟨rule.condition.apply, id, rule.freshness⟩
    | .sampledState rule =>
      engine.addSampledStateRule catalog
        ⟨rule.condition.apply, id, rule.freshness, rule.releaseThreshold⟩
    | .event rule =>
      engine.addEventRule catalog ⟨rule.condition.apply, rule.edge, id, rule.freshness⟩
    | .range rule =>
      engine.addRangeRule catalog ⟨rule.signalKey, rule.input, rule.output, id, rule.freshness⟩

/-! ### Documents -/

inductive ApplyStage
  | complete | validation | actionId | outputBinding | sinkRegistration | rule
  deriving DecidableEq, Repr

structure ApplyStatus where
  stage : ApplyStage := .complete
  validation : ValidationResult := {}
  index : ℕ := 0
  outputsApplied : ℕ := 0
  rulesApplied : ℕ := 0
  sinkRegistered : Bool := false
  binding : BindingStatus := .ok
  engine : ConfigStatus := .ok
  deriving DecidableEq, Repr

def ApplyStatus.ok (status : ApplyStatus) : Bool := status.stage == .complete

/-- Binds the outputs in order; the index of a refused one is the count of those applied. -/
def applyOutputs (config : ControllerConfig) :
    List OutputBinding → ApplyStatus → LedActionSink → ApplyStatus × LedActionSink
  | [], status, leds => (status, leds)
  | output :: outputs, status, leds =>
    let (leds, binding) := bindOutput config leds output
    if binding ≠ .ok then
      ({ status with binding, stage := .outputBinding, index := status.outputsApplied }, leds)
    else
      applyOutputs config outputs
        { status with binding, outputsApplied := status.outputsApplied + 1 } leds

/-- Adds the rules in order; the index of a refused one is the count of those applied. -/
def applyRules (catalog : SignalCatalogView) (config : ControllerConfig) :
    List Rule → ApplyStatus → Engine → ApplyStatus × Engine
  | [], status, engine => (status, engine)
  | rule :: rules, status, engine =>
    let (engine, added) := addRule catalog config engine rule
    if added ≠ .ok then
      ({ status with engine := added, stage := .rule, index := status.rulesApplied }, engine)
    else
      applyRules catalog config rules
        { status with engine := added, rulesApplied := status.rulesApplied + 1 } engine

/-- Registers the sink, once the outputs are bound, and adds the rules. -/
def applyEngine (catalog : SignalCatalogView) (config : ControllerConfig) (sink : Sink)
    (status : ApplyStatus) (engine : Engine) : ApplyStatus × Engine :=
  let (engine, registered) := engine.addSink sink
  if registered ≠ .ok then
    ({ status with engine := registered, stage := .sinkRegistration }, engine)
  else
    applyRules catalog config config.rules
      { status with engine := registered, sinkRegistered := true } engine

/-- Applies a document to the LED adapter, which the engine knows as `sink`. -/
def applyControllerConfig (catalog : SignalCatalogView) (config : ControllerConfig) (sink : Sink)
    (leds : LedActionSink) (engine : Engine) : ApplyStatus × LedActionSink × Engine :=
  let status : ApplyStatus := { validation := validate config }
  if !status.validation.ok then
    ({ status with stage := .validation, index := status.validation.index }, leds, engine)
  else if kMaxActionId < config.actions.length then
    ({ status with stage := .actionId, index := kMaxActionId }, leds, engine)
  else
    let (status, leds) := applyOutputs config config.outputs status leds
    if !status.ok then (status, leds, engine)
    else
      let (status, engine) := applyEngine catalog config sink status engine
      (status, leds, engine)

end AccessoryController.Persisted
