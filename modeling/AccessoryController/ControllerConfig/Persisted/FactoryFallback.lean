import AccessoryController.ActionEngine.SubscriptionLaw
import AccessoryController.ControllerConfig.Persisted.RoundTrip

/-!
# The factory fallback

At boot a selected override is applied to the LED adapter and the detached engine. When it is
refused, at whichever stage, both targets are cleared and the factory document is applied in its
place, on the strip length that the renderer already started with. A factory document that is
refused too leaves both targets empty.

## Main definitions

* `applyPersistedOverrideWithFactoryFallback`: the application with its fallback

## Main results

* `applyControllerConfig_frame`: an application keeps the attachment and the registrations
* `override_falls_back`: after a fallback nothing of the override remains
-/

open AccessoryController.ControllerConfig (Bytes)

namespace AccessoryController.Persisted

open ActionEngine
open LocalArgbActions (LedActionSink)
open VehicleSignals (SignalCatalogView)

structure PersistedOverrideApplyResult where
  overrideStatus : ApplyStatus := {}
  factoryStatus : ApplyStatus := {}
  factoryDiagnostic : Option ConfigDiagnostic := none
  deriving DecidableEq, Repr

def PersistedOverrideApplyResult.ok (result : PersistedOverrideApplyResult) : Bool :=
  if !result.overrideStatus.ok then result.factoryStatus.ok && result.factoryDiagnostic.isNone
  else result.overrideStatus.ok

/-- What the application of an override leaves behind. -/
structure OverrideOutcome where
  result : PersistedOverrideApplyResult
  configuration : ControllerConfig
  leds : LedActionSink
  engine : Engine

/-- Applies an override; a refused one is cleared and replaced by the factory document. The
override's strip length is kept, and a refused factory document is cleared as well. -/
def applyPersistedOverrideWithFactoryFallback (library : ExternalLibrary)
    (catalog : SignalCatalogView) (configuration : ControllerConfig) (factoryJson : Bytes)
    (sink : Sink) (leds : LedActionSink) (engine : Engine) : OverrideOutcome :=
  let (overrideStatus, leds, engine) := applyControllerConfig catalog configuration sink leds engine
  if overrideStatus.ok then ⟨{ overrideStatus }, configuration, leds, engine⟩
  else
    let leds := leds.clear
    let engine := engine.clear.1
    match parseControllerConfig library factoryJson with
    | .error diagnostic =>
      ⟨{ overrideStatus, factoryDiagnostic := some diagnostic }, configuration, leds, engine⟩
    | .ok factory =>
      let configuration := { factory with pixelCount := configuration.pixelCount }
      let (factoryStatus, leds, engine) :=
        applyControllerConfig catalog configuration sink leds engine
      if factoryStatus.ok then ⟨{ overrideStatus, factoryStatus }, configuration, leds, engine⟩
      else ⟨{ overrideStatus, factoryStatus }, configuration, leds.clear, engine.clear.1⟩

/-! ### What an application keeps -/

/-- Nothing of an adapter survives its clearing. -/
theorem clear_leds (leds : LedActionSink) : leds.clear = {} := rfl

/-- The attachment, the registrations and a sampling under way are the same. -/
def SameAttachment (e e' : Engine) : Prop :=
  e'.registrations = e.registrations ∧ e'.attached = e.attached ∧ e'.sampling = e.sampling

theorem SameAttachment.refl (e : Engine) : SameAttachment e e := ⟨rfl, rfl, rfl⟩

theorem SameAttachment.trans {e e' e'' : Engine} (first : SameAttachment e e')
    (second : SameAttachment e' e'') : SameAttachment e e'' :=
  ⟨second.1.trans first.1, second.2.1.trans first.2.1, second.2.2.trans first.2.2⟩

theorem Configured.sameAttachment {e : Engine} {result : Engine × ConfigStatus}
    (configured : Configured e result) : SameAttachment e result.1 := by
  cases configured <;> exact SameAttachment.refl e

variable (catalog : SignalCatalogView)

variable (config : ControllerConfig)

theorem addRule_sameAttachment (engine : Engine) (rule : Rule) :
    SameAttachment engine (addRule catalog config engine rule).1 := by
  unfold addRule
  split
  · exact SameAttachment.refl engine
  · cases rule with
    | state rule => exact Configured.sameAttachment (configured_addStateRule _)
    | sampledState rule => exact Configured.sameAttachment (configured_addSampledStateRule _)
    | event rule => exact Configured.sameAttachment (configured_addEventRule _)
    | range rule => exact Configured.sameAttachment (configured_addRangeRule _)

theorem applyRules_sameAttachment (rules : List Rule) (status : ApplyStatus) (engine : Engine) :
    SameAttachment engine (applyRules catalog config rules status engine).2 := by
  induction rules generalizing status engine with
  | nil => exact SameAttachment.refl engine
  | cons rule rules ih =>
    have added := addRule_sameAttachment catalog config engine rule
    simp only [applyRules]
    split_ifs
    · exact added
    · exact added.trans (ih _ _)

/-- **An application** changes the configuration of the engine only, however far it gets. -/
theorem applyControllerConfig_frame (sink : Sink) (leds : LedActionSink) (engine : Engine) :
    SameAttachment engine (applyControllerConfig catalog config sink leds engine).2.2 := by
  simp only [applyControllerConfig, applyEngine]
  split_ifs
  · exact SameAttachment.refl engine
  · exact SameAttachment.refl engine
  · exact SameAttachment.refl engine
  · exact Configured.sameAttachment (configured_addSink sink)
  · exact (Configured.sameAttachment (configured_addSink sink)).trans
      (applyRules_sameAttachment catalog config _ _ _)

/-! ### A sampling under way -/

/-- The engine with another index of the sampling loop, which belongs to the loop's caller. -/
def atSampling (sampling : Option ℕ) (e : Engine) : Engine := { e with sampling }

/-- The clearing of a detached engine leaves nothing of its configuration. -/
theorem clear_detached {e e' : Engine} (same : SameAttachment e e') (detached : e.attached = false)
    (unregistered : e.registrations = []) : e'.clear.1 = atSampling e.sampling {} := by
  obtain ⟨registrations, attached, sampling⟩ := same
  unfold Engine.clear
  rw [attached, detached, if_neg Bool.false_ne_true, registrations, sampling, unregistered]
  rfl

/-- A call that does not depend on the index of the sampling loop. -/
def Insensitive {T : Type} (call : Engine → Engine × T) : Prop :=
  ∀ sampling e, call (atSampling sampling e) = (call e).map (atSampling sampling) id

theorem insensitive_addSink (sink : Sink) : Insensitive fun e => e.addSink sink := by
  intro sampling e
  simp only [Engine.addSink, apply_ite (Prod.map (atSampling sampling) id)]
  rfl

theorem insensitive_addRule (rule : ActionEngine.Rule) : Insensitive fun e => e.addRule rule := by
  intro sampling e
  simp only [Engine.addRule, apply_ite (Prod.map (atSampling sampling) id)]
  rfl

theorem insensitive_addPolledRule (rule : PolledRule) :
    Insensitive fun e => e.addPolledRule rule := by
  intro sampling e
  simp only [Engine.addPolledRule, apply_ite (Prod.map (atSampling sampling) id)]
  rfl

theorem checkAction_atSampling (sampling : Option ℕ) (e : Engine) :
    (atSampling sampling e).checkAction = e.checkAction := rfl

theorem resolveRule_atSampling (sampling : Option ℕ) (e : Engine) :
    (atSampling sampling e).resolveRule catalog = e.resolveRule catalog := rfl

theorem insensitive_addStateRule (config : StateRuleConfig) :
    Insensitive fun e => e.addStateRule catalog config := by
  intro sampling e
  simp only [Engine.addStateRule, resolveRule_atSampling]
  split
  · rfl
  · exact insensitive_addRule _ sampling e

theorem insensitive_addEventRule (config : EventRuleConfig) :
    Insensitive fun e => e.addEventRule catalog config := by
  intro sampling e
  simp only [Engine.addEventRule, resolveRule_atSampling]
  split
  · rfl
  · exact insensitive_addRule _ sampling e

theorem insensitive_addRangeRule (config : RangeRuleConfig) :
    Insensitive fun e => e.addRangeRule catalog config := by
  intro sampling e
  beta_reduce
  unfold Engine.addRangeRule
  rw [checkAction_atSampling]
  by_cases refused : e.checkAction config.action true ≠ .ok
  · rw [if_pos refused, if_pos refused]
    rfl
  · rw [if_neg refused, if_neg refused]
    split
    · rfl
    · exact insensitive_addPolledRule _ sampling e

theorem insensitive_addSampledStateRule (config : SampledStateRuleConfig) :
    Insensitive fun e => e.addSampledStateRule catalog config := by
  intro sampling e
  simp only [Engine.addSampledStateRule, checkAction_atSampling]
  split_ifs
  · rfl
  split
  · rfl
  split
  · exact insensitive_addPolledRule _ sampling e
  split
  · rfl
  split
  · rfl
  · exact insensitive_addPolledRule _ sampling e

theorem insensitive_configRule (rule : Rule) :
    Insensitive fun e => addRule catalog config e rule := by
  intro sampling e
  simp only [addRule]
  split
  · rfl
  · cases rule with
    | state rule => exact insensitive_addStateRule catalog _ sampling e
    | sampledState rule => exact insensitive_addSampledStateRule catalog _ sampling e
    | event rule => exact insensitive_addEventRule catalog _ sampling e
    | range rule => exact insensitive_addRangeRule catalog _ sampling e

theorem applyRules_atSampling (rules : List Rule) (status : ApplyStatus) (sampling : Option ℕ)
    (e : Engine) :
    applyRules catalog config rules status (atSampling sampling e) =
      (applyRules catalog config rules status e).map id (atSampling sampling) := by
  induction rules generalizing status e with
  | nil => rfl
  | cons rule rules ih =>
    have added := insensitive_configRule catalog config rule sampling e
    simp only at added
    simp only [applyRules, added, Prod.map_fst, Prod.map_snd, id_eq]
    split_ifs
    · rfl
    · exact ih _ _

/-- The application of a document does not depend on the index of the sampling loop. -/
theorem applyControllerConfig_atSampling (sink : Sink) (leds : LedActionSink) (sampling : Option ℕ)
    (e : Engine) :
    applyControllerConfig catalog config sink leds (atSampling sampling e) =
      (applyControllerConfig catalog config sink leds e).map id
        (Prod.map id (atSampling sampling)) := by
  have registered := insensitive_addSink sink sampling e
  simp only at registered
  simp only [applyControllerConfig, applyEngine, registered, Prod.map_fst, Prod.map_snd, id_eq]
  split_ifs
  · rfl
  · rfl
  · rfl
  · rfl
  · rw [applyRules_atSampling]
    rfl

/-! ### The fallback -/

/-- **After a fallback** the adapter and the engine are those of the factory document applied to
fresh ones, on the strip length of the override, or empty ones if it cannot be parsed or is refused
too. The override is an arbitrary model that is refused at any stage, the engine has run before in
any way and is detached. A sampling loop under way keeps its index. -/
theorem override_falls_back (library : ExternalLibrary) (catalog : SignalCatalogView)
    (configuration : ControllerConfig) (factoryJson : Bytes) (sink : Sink) (leds : LedActionSink)
    (calls : List Call) {engine : Engine}
    (reached : engine = Machine.after (Engine.step catalog) {} calls)
    (detached : engine.attached = false)
    (refused : (applyControllerConfig catalog configuration sink leds engine).1.ok = false) :
    let outcome := applyPersistedOverrideWithFactoryFallback library catalog configuration
      factoryJson sink leds engine
    match parseControllerConfig library factoryJson with
    | .error diagnostic =>
      outcome.result.factoryDiagnostic = some diagnostic ∧ outcome.leds = {} ∧
        outcome.engine = atSampling engine.sampling {}
    | .ok factory =>
      let configuration := { factory with pixelCount := configuration.pixelCount }
      let fresh := applyControllerConfig catalog configuration sink {} {}
      outcome.configuration = configuration ∧ outcome.result.factoryStatus = fresh.1 ∧
        if fresh.1.ok then
          outcome.leds = fresh.2.1 ∧ outcome.engine = atSampling engine.sampling fresh.2.2
        else outcome.leds = {} ∧ outcome.engine = atSampling engine.sampling {} := by
  have unregistered : engine.registrations = [] := by
    rw [reached]
    exact (accounted_run catalog calls).2.detached (reached ▸ detached)
  have cleared : (applyControllerConfig catalog configuration sink leds engine).2.2.clear.1 =
      atSampling engine.sampling {} :=
    clear_detached (applyControllerConfig_frame catalog configuration sink leds engine) detached
      unregistered
  simp only [applyPersistedOverrideWithFactoryFallback, refused, Bool.false_eq_true, if_false,
    cleared, clear_leds]
  cases parseControllerConfig library factoryJson with
  | error diagnostic => exact ⟨rfl, rfl, rfl⟩
  | ok factory =>
    -- The factory document meets a cleared engine, which differs from a fresh one in the index.
    simp only [applyControllerConfig_atSampling, Prod.map_fst, Prod.map_snd, id_eq]
    split_ifs with applied
    · exact ⟨rfl, rfl, rfl, rfl⟩
    · refine ⟨rfl, rfl, rfl, ?_⟩
      have frame := applyControllerConfig_frame catalog
        { factory with pixelCount := configuration.pixelCount } sink {}
        (atSampling engine.sampling {})
      rw [applyControllerConfig_atSampling] at frame
      have cleared := clear_detached frame rfl rfl
      exact cleared

/-- A vehicle with a door. -/
def doorCatalog : SignalCatalogView :=
  [{ id := ⟨1⟩, key := ascii "body.door", type := .enum, capabilities := { notify := true },
     choices := [⟨2, ascii "open"⟩] }]

/-- An override whose second rule addresses a signal that the vehicle does not have. -/
def strandedOverride : ControllerConfig where
  pixelCount := 140
  actions := [⟨ascii "door"⟩, ⟨ascii "brake"⟩]
  rules := [.event { action := ascii "door",
                     condition := ⟨ascii "body.door", .equal, .choice (ascii "open")⟩ },
    .state { action := ascii "brake", condition := ⟨ascii "b", .equal, .boolean true⟩ }]
  outputs := [.ledFill { action := ascii "door", zone := ⟨0, 140, .centerOut⟩ },
    .ledEffect { action := ascii "brake", effect := .brake }]

/-- Two outputs are bound and a rule is added before the override is refused; the factory document
then applies, and nothing of the override is left. -/
theorem override_falls_back_stranded :
    let json := serializeControllerConfig referenceLibrary doorConfig
    let started := (({} : Engine).addSink 7).1
    let refused := (applyControllerConfig doorCatalog strandedOverride 1 {} started).1
    let outcome := applyPersistedOverrideWithFactoryFallback referenceLibrary doorCatalog
      strandedOverride json 1 {} started
    let fresh := applyControllerConfig doorCatalog { doorConfig with pixelCount := 140 } 1 {} {}
    (refused.stage, refused.outputsApplied, refused.rulesApplied) = (.rule, 2, 1) ∧
    (fresh.1.ok = true ∧ fresh.2.1.transients.bindings.length = 1 ∧ fresh.2.2.rules.length = 1) ∧
    outcome.configuration = { doorConfig with pixelCount := 140 } ∧
    outcome.leds = fresh.2.1 ∧ outcome.engine = atSampling none fresh.2.2 := by
  intro json started refused outcome fresh
  have parsed : parseControllerConfig referenceLibrary json = .ok doorConfig :=
    parseControllerConfig_serialize referenceLibrary_faithful
      (readable_of_accepted validate_doorConfig nulFree_doorConfig) validate_doorConfig
      (length_doorConfig.trans (by decide)) (by decide)
  have applied : fresh.1.ok = true ∧ fresh.2.1.transients.bindings.length = 1 ∧
      fresh.2.2.rules.length = 1 := by decide +kernel
  clear_value json
  have reached : started = Machine.after (Engine.step doorCatalog) {} [.addSink 7] := rfl
  have fallen := override_falls_back referenceLibrary doorCatalog strandedOverride json 1 {}
    [.addSink 7] reached rfl (by decide +kernel)
  rw [parsed] at fallen
  obtain ⟨configuration, -, left⟩ := fallen
  change (if fresh.1.ok then _ else _) at left
  rw [if_pos applied.1] at left
  exact ⟨by decide +kernel, applied, configuration, left.1, left.2⟩

end AccessoryController.Persisted
