import Mathlib.Algebra.Group.Nat.Defs
import AccessoryController.CompanionProtocol.Crc32

/-!
# The status of a configuration transfer

The transfer state and the result of the last finished transfer, with the diagnostic details the
status value reports, and the document that the boot selected.

## Main definitions

* `ActiveDocument`: the canonical document of this boot, with its checksum
* `TransferStatus`: the transfer state, the last result and its details
* `AttError`: the answers to a protected write
-/

namespace AccessoryController.CompanionProtocol

/-- A view of a byte sequence. -/
abbrev ByteView := List UInt8

/-- The answer to a protected write; `none` is success. -/
inductive AttError
  | none | invalidAttributeValueLength | invalidPdu | unsupportedOperation | busy | invalidState
  | storageFailure | mtuTooSmall | tooLarge | offsetMismatch | incomplete | checksumMismatch
  | configRejected | applyRejected
  deriving DecidableEq, Repr

/-- The smallest negotiated MTU for uploads and notifications. -/
def kMinimumTransferMtu : ℕ := 64

/-- The largest upload. -/
def kMaxConfigBytes : ℕ := 4096

inductive ConfigSource
  | factory | override | none
  deriving DecidableEq, Repr

/-- The canonical document that this boot selected; a default one stands for none. -/
structure ActiveDocument where
  source : ConfigSource := .none
  bytes : ByteView := []
  crc32 : UInt32 := 0

/-- A selected document has a source and at most 65535 bytes. -/
def ActiveDocument.selected (source : ConfigSource) (canonical : ByteView) :
    Option ActiveDocument :=
  if source = .none ∨ canonical.length > 0xFFFF then Option.none
  else some ⟨source, canonical, CompanionProtocol.crc32 canonical⟩

/-- The length as the sixteen-bit word that the protocol reports. -/
def ActiveDocument.length (document : ActiveDocument) : ℕ := document.bytes.length % 2 ^ 16

inductive TransferState
  | idle | receiving | restartPending
  deriving DecidableEq, Repr

inductive TransferResult
  | none | saved | configRejected | applyRejected | storageFailed | aborted | timedOut
  | checksumMismatch | interrupted
  deriving DecidableEq, Repr

inductive DiagnosticCategory
  | none | parse | structural | semantic
  deriving DecidableEq, Repr

inductive DiagnosticCode
  | none | malformedJson | embeddedNul | inputTooLarge | nestingLimitExceeded | rootTypeMismatch
  | missingField | unknownField | typeMismatch | invalidValue | schemaValidation
  | resourceExhausted
  deriving DecidableEq, Repr

inductive ValidationCode
  | none | unsupportedVersion | emptyActionName | duplicateActionName | undeclaredAction
  | duplicateAction | emptySignalKey | unknownComparison | unknownFreshness | unknownEventEdge
  | emptyChoice | invalidOperand | unsupportedComparison | invalidHysteresis | invalidRange
  | unknownLedEffect | unknownFillDirection | emptyZone | zoneOutOfRange | invalidColor
  | invalidPriority | duplicateBinding | invalidDuration | incompatibleActionKind
  deriving DecidableEq, Repr

inductive ConfigSection
  | document | actions | rules | outputs
  deriving DecidableEq, Repr

inductive ApplyStage
  | complete | validation | actionId | outputBinding | sinkRegistration | rule
  deriving DecidableEq, Repr

inductive BindingCode
  | ok | invalidAction | duplicateBinding | capacityExceeded | invalidEffect
  deriving DecidableEq, Repr

inductive EngineConfigCode
  | ok | invalidState | capacityExceeded | duplicateSink | invalidAction | duplicateAction
  | unknownSignal | unsupportedCapability | typeMismatch | unknownChoice | invalidOperand
  | unsupportedComparison | invalidRange | invalidHysteresis
  deriving DecidableEq, Repr

def kMaxDiagnosticPathBytes : ℕ := 26

/-- A diagnostic path, kept to its first bytes. -/
structure DiagnosticPath where
  text : ByteView := []
  truncated : Bool := false
  deriving DecidableEq, Repr

/-- The diagnostic of a rejected configuration. -/
structure ConfigRejection where
  category : DiagnosticCategory := .none
  code : DiagnosticCode := .none
  validation : ValidationCode := .none
  index : ℕ := 0
  path : DiagnosticPath := {}
  deriving DecidableEq, Repr

/-- The dry-run status of a configuration that could not be applied. -/
structure ApplyRejection where
  stage : ApplyStage := .complete
  validation : ValidationCode := .none
  validationSection : ConfigSection := .document
  index : ℕ := 0
  binding : BindingCode := .ok
  engine : EngineConfigCode := .ok
  deriving DecidableEq, Repr

/-- The canonical length and checksum of a saved override. -/
structure SavedDocument where
  length : ℕ := 0
  crc32 : UInt32 := 0
  deriving DecidableEq, Repr

/-- The transfer state and the result of the last finished transfer. The details are meaningful
for their own result only. -/
structure TransferStatus where
  state : TransferState := .idle
  result : TransferResult := .none
  transferLength : ℕ := 0
  receivedLength : ℕ := 0
  saved : SavedDocument := {}
  rejection : ConfigRejection := {}
  apply : ApplyRejection := {}
  deriving DecidableEq, Repr

end AccessoryController.CompanionProtocol
