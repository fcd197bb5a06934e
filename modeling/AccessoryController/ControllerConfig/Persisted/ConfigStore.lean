import AccessoryController.ControllerConfig.Persisted.JsonSerializer

/-!
# The configuration store

Candidates are parsed, and what is stored is the canonical text of their model. At boot the stored
text is parsed again; without it the factory document is.

## Main definitions

* `ConfigStoreBackend`: the storage of one text
* `saveOverride`: the storing of a candidate
* `loadBootConfiguration`: the selection at boot
-/

open AccessoryController.ControllerConfig (Bytes ReadResult WriteResult
  kMaxStoredControllerConfigJsonBytes)

namespace AccessoryController.Persisted

/-- A storage adapter and its state. -/
structure ConfigStoreBackend (Store : Type) where
  readOverride : Store → ReadResult × Store
  writeOverride : Bytes → Store → WriteResult × Store
  clearOverride : Store → WriteResult × Store

/-! ### Saving -/

inductive SaveStatus
  | saved | invalidCandidate | failed
  deriving DecidableEq, Repr

structure SaveOverrideResult where
  status : SaveStatus := .failed
  canonicalJson : Bytes := []
  diagnostic : Option ConfigDiagnostic := none
  message : Bytes := []
  deriving DecidableEq, Repr

def SaveOverrideResult.ok (result : SaveOverrideResult) : Bool := result.status == .saved

/-- The result once the backend has been asked to write. -/
def writtenResult (canonicalJson : Bytes) (written : WriteResult) : SaveOverrideResult :=
  if !written.ok then { message := ascii written.message }
  else { status := .saved, canonicalJson := canonicalJson }

section

variable {Store : Type} (library : ExternalLibrary) (backend : ConfigStoreBackend Store)

def saveOverride (candidateJson : Bytes) (store : Store) : SaveOverrideResult × Store :=
  match parseControllerConfig library candidateJson with
  | .error diagnostic =>
    ({ status := .invalidCandidate, diagnostic := some diagnostic,
       message := ascii "candidate configuration failed canonical parsing and validation" }, store)
  | .ok config =>
    let canonicalJson := serializeControllerConfig library config
    if kMaxStoredControllerConfigJsonBytes < canonicalJson.length then
      let message := ascii "canonical configuration JSON exceeds the 4 KiB override storage limit"
      ({ status := .invalidCandidate, message := message,
         diagnostic := some ⟨.structural, .inputTooLarge, ascii "$", message, .none, 0⟩ }, store)
    else
      match parseControllerConfig library canonicalJson with
      | .error diagnostic =>
        ({ diagnostic := some diagnostic,
           message := ascii "canonical configuration serialization failed validation" }, store)
      | .ok _ =>
        let (written, store) := backend.writeOverride canonicalJson store
        (writtenResult canonicalJson written, store)

/-! ### Booting -/

inductive ConfigurationSource
  | factoryDefault | persistedOverride
  deriving DecidableEq, Repr

structure BootConfigurationResult where
  configuration : Option ControllerConfig := none
  source : ConfigurationSource := .factoryDefault
  overrideDiagnostic : Option ConfigDiagnostic := none
  overrideStorageMessage : Bytes := []
  factoryDiagnostic : Option ConfigDiagnostic := none
  deriving DecidableEq, Repr

def BootConfigurationResult.ok (result : BootConfigurationResult) : Bool :=
  result.configuration.isSome

/-- The factory document, after what has been found out about the override. -/
def loadFactory (factoryJson : Bytes) (result : BootConfigurationResult) :
    BootConfigurationResult :=
  match parseControllerConfig library factoryJson with
  | .ok config => { result with configuration := some config, source := .factoryDefault }
  | .error diagnostic => { result with factoryDiagnostic := some diagnostic }

/-- The selection at boot. Without a backend there is no override to look for. -/
def loadBootConfiguration (store : Option (ConfigStoreBackend Store × Store))
    (factoryJson : Bytes) : BootConfigurationResult :=
  match store with
  | none => loadFactory library factoryJson {}
  | some (backend, state) =>
    let result := (backend.readOverride state).1
    match result.status with
    | .present =>
      match parseControllerConfig library result.value with
      | .ok config => { configuration := some config, source := .persistedOverride }
      | .error diagnostic =>
        loadFactory library factoryJson { overrideDiagnostic := some diagnostic }
    | .failed =>
      loadFactory library factoryJson { overrideStorageMessage := ascii result.message }
    | .missing => loadFactory library factoryJson {}

end

end AccessoryController.Persisted
