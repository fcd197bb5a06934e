import AccessoryController.CompanionProtocol.ConfigStatusValue
import AccessoryController.CompanionProtocol.ConfigTransfer
import AccessoryController.ControllerConfig.Persisted.ConfigStore
import AccessoryController.ControllerConfig.Persisted.FactoryFallback

/-!
# The configuration service

The controller side of a configuration transfer. At boot the stored override or the factory
document is selected and applied, and the service keeps the selection. A commit parses its
document, applies it to scratch targets and saves its canonical form; the running configuration
changes at the next boot only. The document of this boot is served in pages.

## Main definitions

* `ConfigService`: the service, with what the boot recorded
* `ConfigService.commit`, `ConfigService.revertToFactory`: the calls that reach the store
* `configureEngineLighting`: the boot path up to the record of its selection
* `encodeReadBackPage`: one page of the active document
-/

open AccessoryController.ControllerConfig (Bytes)

namespace AccessoryController.CompanionConfig

open CompanionProtocol
open Persisted (ConfigDiagnostic ApplyStatus BootConfigurationResult ConfigStoreBackend
  ControllerConfig ExternalLibrary applyControllerConfig
  applyPersistedOverrideWithFactoryFallback loadBootConfiguration parseControllerConfig
  saveOverride serializeControllerConfig)
open ActionEngine (Engine Sink)
open LocalArgbActions (LedActionSink)
open VehicleSignals (SignalCatalogView)

/-! ### Wire codes -/

def categoryToWire : Persisted.ConfigErrorCategory → DiagnosticCategory
  | .parse => .parse
  | .structural => .structural
  | .semantic => .semantic

def codeToWire : Persisted.ConfigErrorCode → DiagnosticCode
  | .malformedJson => .malformedJson
  | .embeddedNul => .embeddedNul
  | .inputTooLarge => .inputTooLarge
  | .nestingLimitExceeded => .nestingLimitExceeded
  | .rootTypeMismatch => .rootTypeMismatch
  | .missingField => .missingField
  | .unknownField => .unknownField
  | .typeMismatch => .typeMismatch
  | .invalidValue => .invalidValue
  | .schemaValidation => .schemaValidation
  | .resourceExhausted => .resourceExhausted

/-- Two errors share a code of the frozen protocol; the path of the diagnostic tells them apart. -/
def validationToWire : Persisted.ValidationError → ValidationCode
  | .none => .none
  | .unsupportedVersion => .unsupportedVersion
  | .emptyActionName => .emptyActionName
  | .duplicateActionName => .duplicateActionName
  | .undeclaredAction => .undeclaredAction
  | .duplicateAction => .duplicateAction
  | .emptySignalKey => .emptySignalKey
  | .unknownComparison => .unknownComparison
  | .unknownFreshness => .unknownFreshness
  | .unknownEventEdge => .unknownEventEdge
  | .emptyChoice => .emptyChoice
  | .invalidOperand => .invalidOperand
  | .unsupportedComparison => .unsupportedComparison
  | .invalidHysteresis => .invalidHysteresis
  | .invalidPixelCount | .invalidRange => .invalidRange
  | .unknownLedEffect => .unknownLedEffect
  | .unknownFillDirection => .unknownFillDirection
  | .emptyZone => .emptyZone
  | .zoneOutOfRange => .zoneOutOfRange
  | .invalidColor => .invalidColor
  | .invalidPriority => .invalidPriority
  | .duplicateBinding => .duplicateBinding
  | .invalidDuration => .invalidDuration
  | .incompatibleActionKind => .incompatibleActionKind

def sectionToWire : Persisted.ConfigSection → ConfigSection
  | .sinks | .document => .document
  | .actions => .actions
  | .rules => .rules
  | .outputs => .outputs

def stageToWire : Persisted.ApplyStage → ApplyStage
  | .complete => .complete
  | .validation => .validation
  | .actionId => .actionId
  | .outputBinding => .outputBinding
  | .sinkRegistration => .sinkRegistration
  | .rule => .rule

def bindingToWire : LocalArgbActions.BindingStatus → BindingCode
  | .ok => .ok
  | .invalidAction => .invalidAction
  | .duplicateBinding => .duplicateBinding
  | .capacityExceeded => .capacityExceeded
  | .invalidEffect => .invalidEffect

def engineToWire : ActionEngine.ConfigStatus → EngineConfigCode
  | .ok => .ok
  | .invalidState => .invalidState
  | .capacityExceeded => .capacityExceeded
  | .duplicateSink => .duplicateSink
  | .invalidAction => .invalidAction
  | .duplicateAction => .duplicateAction
  | .unknownSignal => .unknownSignal
  | .unsupportedCapability => .unsupportedCapability
  | .typeMismatch => .typeMismatch
  | .unknownChoice => .unknownChoice
  | .invalidOperand => .invalidOperand
  | .unsupportedComparison => .unsupportedComparison
  | .invalidRange => .invalidRange
  | .invalidHysteresis => .invalidHysteresis

/-- The diagnostic of a rejected document; its message is not sent. -/
def configRejection (diagnostic : ConfigDiagnostic) : ConfigRejection where
  category := categoryToWire diagnostic.category
  code := codeToWire diagnostic.code
  validation := validationToWire diagnostic.schemaError
  index := diagnostic.index
  path := DiagnosticPath.of diagnostic.path

/-- The status of a failed dry run. -/
def applyRejection (status : ApplyStatus) : ApplyRejection where
  stage := stageToWire status.stage
  validation := validationToWire status.validation.error
  validationSection := sectionToWire status.validation.configSection
  index := status.index
  binding := bindingToWire status.binding
  engine := engineToWire status.engine

/-- The rejection of a document; one without a diagnostic is reported as such. -/
def documentRejection (diagnostic : Option ConfigDiagnostic) : CommitOutcome :=
  .configRejected (diagnostic.elim {} configRejection)

/-! ### The service -/

/-- What a boot selected, as a transfer serves it. -/
structure ConfigBoot where
  status : BootStatus := {}
  configStoreAvailable : Bool := false

def ConfigBoot.environment (boot : ConfigBoot) : ConfigTransferEnvironment :=
  ⟨boot.configStoreAvailable, boot.status.active⟩

/-- The service. It refers to the configuration that the boot path applies, and to a store if
there is one. -/
structure ConfigService where
  active : ControllerConfig
  storeAvailable : Bool := false
  boot : BootStatus := {}
  source : ConfigSource := .none
  prepared : Bool := false
  canonical : Bytes := []

/-- A dry run: the configuration is applied to a fresh engine over the live catalogue and to a
fresh LED adapter. -/
def dryRun (catalog : SignalCatalogView) (sink : Sink) (config : ControllerConfig) : ApplyStatus :=
  (applyControllerConfig catalog config sink {} {}).1

namespace ConfigService

variable (library : ExternalLibrary)

def recordBoot (service : ConfigService) (selection : BootConfigurationResult)
    (storeAvailable : Bool) : ConfigService :=
  { service with
    storeAvailable
    source := if !selection.ok then .none
      else if selection.source = .persistedOverride then .override else .factory
    boot :=
      { flags :=
          { invalidOverride := selection.overrideDiagnostic.isSome
            overrideReadFailed := !selection.overrideStorageMessage.isEmpty
            noConfigStore := !storeAvailable
            lightingSetupFailed := !selection.ok }
        overrideCode := selection.overrideDiagnostic.elim .none (codeToWire ·.code)
        overrideValidation :=
          selection.overrideDiagnostic.elim .none (validationToWire ·.schemaError) }
    prepared := false
    canonical := [] }

/-- The document of this boot, with the storage that it is a view of. -/
def activeDocument (service : ConfigService) : ActiveDocument × ConfigService :=
  if service.source = .none then ({}, service)
  else
    let canonical := serializeControllerConfig library service.active
    ((ActiveDocument.selected service.source canonical).getD {}, { service with canonical })

def prepareBoot (service : ConfigService) : ConfigBoot × ConfigService :=
  let service := if !service.prepared then
      let document := service.activeDocument library
      { document.2 with
        boot := { document.2.boot with active := document.1 }
        prepared := true }
    else service
  (⟨service.boot, service.storeAvailable⟩, service)

variable {Store : Type} (backend : ConfigStoreBackend Store) (catalog : SignalCatalogView)
  (sink : Sink)

/-- A commit of a complete upload. -/
def commit (service : ConfigService) (document : ByteView) (store : Store) :
    CommitOutcome × Store :=
  if !service.storeAvailable then (.storageFailed, store)
  else
    match parseControllerConfig library document with
    | .error diagnostic => (documentRejection (some diagnostic), store)
    | .ok configuration =>
      let applied := dryRun catalog sink configuration
      if !applied.ok then (.applyRejected (applyRejection applied), store)
      else
        let (saved, store) := saveOverride library backend document store
        match saved.status with
        | .saved =>
          (.saved ⟨saved.canonicalJson.length % 2 ^ 16, crc32 saved.canonicalJson⟩, store)
        | .invalidCandidate => (documentRejection saved.diagnostic, store)
        | .failed => (.storageFailed, store)

def revertToFactory (service : ConfigService) (store : Store) : Bool × Store :=
  if !service.storeAvailable then (false, store)
  else
    let (cleared, store) := backend.clearOverride store
    (cleared.ok, store)

end ConfigService

/-! ### The boot path -/

/-- What the boot path leaves behind. -/
structure Booted where
  configured : Bool
  service : ConfigService
  leds : LedActionSink
  engine : Engine

/-- Selects and applies the configuration of a boot on fresh targets, and records the selection.
`startRenderer` answers whether the renderer started with a pixel count. -/
def configureEngineLighting {Store : Type} (library : ExternalLibrary)
    (catalog : SignalCatalogView) (sink : Sink) (startRenderer : ℤ → Bool)
    (backend : Option (ConfigStoreBackend Store × Store)) (factoryJson : Bytes)
    (service : ConfigService) : Booted :=
  let selected := loadBootConfiguration library backend factoryJson
  match selected.configuration with
  | none => ⟨false, service.recordBoot selected backend.isSome, {}, {}⟩
  | some configuration =>
    let service := { service with active := configuration }
    if !startRenderer configuration.pixelCount then
      ⟨false, service.recordBoot selected backend.isSome, {}, {}⟩
    else if selected.source = .persistedOverride then
      let outcome := applyPersistedOverrideWithFactoryFallback library catalog configuration
        factoryJson sink {} {}
      let selected := if !outcome.result.overrideStatus.ok then
          { selected with
            source := .factoryDefault
            factoryDiagnostic := outcome.result.factoryDiagnostic.or selected.factoryDiagnostic }
        else selected
      let service := { service with active := outcome.configuration }
      ⟨outcome.result.ok, service.recordBoot selected backend.isSome, outcome.leds,
        outcome.engine⟩
    else
      let (status, leds, engine) := applyControllerConfig catalog configuration sink {} {}
      ⟨status.ok, service.recordBoot selected backend.isSome, leds, engine⟩

/-! ### Read-back -/

def kReadBackHeaderBytes : ℕ := 9

def kMaxReadBackDataBytes : ℕ := 200

abbrev EncodedReadBackPage := BoundedBytes (kReadBackHeaderBytes + kMaxReadBackDataBytes)

/-- An append whose refusal is not looked at. -/
def pushed (page : EncodedReadBackPage) (bytes : List UInt8) : EncodedReadBackPage :=
  (page.append bytes).getD page

/-- The page at an offset: the header and up to 200 bytes of the document. -/
def encodeReadBackPage (document : ActiveDocument) (pageOffset : ℕ) :
    Option EncodedReadBackPage :=
  if document.length < pageOffset then none
  else
    let page := pushed .empty [WireCode.code document.source]
    let page := pushed page (LittleEndian.u16 document.length)
    let page := pushed page (LittleEndian.u32 document.crc32.toNat)
    let page := pushed page (LittleEndian.u16 pageOffset)
    let rest := document.bytes.drop pageOffset
    some (pushed page (rest.take (min rest.length kMaxReadBackDataBytes)))

end AccessoryController.CompanionConfig
