import AccessoryController.CompanionProtocol.Bytes
import AccessoryController.CompanionProtocol.ConfigStatus
import AccessoryController.Library.Utf8

/-!
# The config status value

The status characteristic has one layout for every state. A field that does not apply to the
current state, result or boot flags is zero, whatever the inputs hold. Every enumerator has an
explicit wire code.

## Main definitions

* `WireCode`: the enumerations with their wire codes
* `DiagnosticPath.of`: a path, cut at a character boundary
* `BootStatus`: what a boot selected
* `encodeConfigStatus`: the encoder
-/

namespace AccessoryController.CompanionProtocol

open LittleEndian

/-! ### Wire codes -/

/-- An enumeration whose values have stable wire codes. -/
class WireCode (α : Type) where
  code : α → UInt8
  all : List α
  find_code : ∀ a, all.find? (fun b => code b == code a) = some a

/-- The value with a wire code. -/
def fromCode {α : Type} [WireCode α] (b : UInt8) : Option α :=
  WireCode.all.find? fun a => WireCode.code a == b

theorem fromCode_code {α : Type} [WireCode α] (a : α) : fromCode (WireCode.code a) = some a :=
  WireCode.find_code a

open WireCode (code)

instance : WireCode TransferState where
  code
    | .idle => 0
    | .receiving => 1
    | .restartPending => 2
  all := [.idle, .receiving, .restartPending]
  find_code := by intro a; cases a <;> rfl

instance : WireCode TransferResult where
  code
    | .none => 0
    | .saved => 1
    | .configRejected => 2
    | .applyRejected => 3
    | .storageFailed => 4
    | .aborted => 5
    | .timedOut => 6
    | .checksumMismatch => 7
    | .interrupted => 8
  all := [.none, .saved, .configRejected, .applyRejected, .storageFailed, .aborted, .timedOut,
    .checksumMismatch, .interrupted]
  find_code := by intro a; cases a <;> rfl

instance : WireCode ConfigSource where
  code
    | .factory => 0
    | .override => 1
    | .none => 0xFF
  all := [.factory, .override, .none]
  find_code := by intro a; cases a <;> rfl

instance : WireCode DiagnosticCategory where
  code
    | .none => 0
    | .parse => 1
    | .structural => 2
    | .semantic => 3
  all := [.none, .parse, .structural, .semantic]
  find_code := by intro a; cases a <;> rfl

instance : WireCode DiagnosticCode where
  code
    | .none => 0
    | .malformedJson => 1
    | .embeddedNul => 2
    | .inputTooLarge => 3
    | .nestingLimitExceeded => 4
    | .rootTypeMismatch => 5
    | .missingField => 6
    | .unknownField => 7
    | .typeMismatch => 8
    | .invalidValue => 9
    | .schemaValidation => 10
    | .resourceExhausted => 11
  all := [.none, .malformedJson, .embeddedNul, .inputTooLarge, .nestingLimitExceeded,
    .rootTypeMismatch, .missingField, .unknownField, .typeMismatch, .invalidValue,
    .schemaValidation, .resourceExhausted]
  find_code := by intro a; cases a <;> rfl

instance : WireCode ValidationCode where
  code
    | .none => 0
    | .unsupportedVersion => 1
    | .emptyActionName => 2
    | .duplicateActionName => 3
    | .undeclaredAction => 4
    | .duplicateAction => 5
    | .emptySignalKey => 6
    | .unknownComparison => 7
    | .unknownFreshness => 8
    | .unknownEventEdge => 9
    | .emptyChoice => 10
    | .invalidOperand => 11
    | .unsupportedComparison => 12
    | .invalidHysteresis => 13
    | .invalidRange => 14
    | .unknownLedEffect => 15
    | .unknownFillDirection => 16
    | .emptyZone => 17
    | .zoneOutOfRange => 18
    | .invalidColor => 19
    | .invalidPriority => 20
    | .duplicateBinding => 21
    | .invalidDuration => 22
    | .incompatibleActionKind => 23
  all := [.none, .unsupportedVersion, .emptyActionName, .duplicateActionName, .undeclaredAction,
    .duplicateAction, .emptySignalKey, .unknownComparison, .unknownFreshness, .unknownEventEdge,
    .emptyChoice, .invalidOperand, .unsupportedComparison, .invalidHysteresis, .invalidRange,
    .unknownLedEffect, .unknownFillDirection, .emptyZone, .zoneOutOfRange, .invalidColor,
    .invalidPriority, .duplicateBinding, .invalidDuration, .incompatibleActionKind]
  find_code := by intro a; cases a <;> rfl

instance : WireCode ConfigSection where
  code
    | .document => 0
    | .actions => 1
    | .rules => 2
    | .outputs => 3
  all := [.document, .actions, .rules, .outputs]
  find_code := by intro a; cases a <;> rfl

instance : WireCode ApplyStage where
  code
    | .complete => 0
    | .validation => 1
    | .actionId => 2
    | .outputBinding => 3
    | .sinkRegistration => 4
    | .rule => 5
  all := [.complete, .validation, .actionId, .outputBinding, .sinkRegistration, .rule]
  find_code := by intro a; cases a <;> rfl

instance : WireCode BindingCode where
  code
    | .ok => 0
    | .invalidAction => 1
    | .duplicateBinding => 2
    | .capacityExceeded => 3
    | .invalidEffect => 4
  all := [.ok, .invalidAction, .duplicateBinding, .capacityExceeded, .invalidEffect]
  find_code := by intro a; cases a <;> rfl

instance : WireCode EngineConfigCode where
  code
    | .ok => 0
    | .invalidState => 1
    | .capacityExceeded => 2
    | .duplicateSink => 3
    | .invalidAction => 4
    | .duplicateAction => 5
    | .unknownSignal => 6
    | .unsupportedCapability => 7
    | .typeMismatch => 8
    | .unknownChoice => 9
    | .invalidOperand => 10
    | .unsupportedComparison => 11
    | .invalidRange => 12
    | .invalidHysteresis => 13
  all := [.ok, .invalidState, .capacityExceeded, .duplicateSink, .invalidAction, .duplicateAction,
    .unknownSignal, .unsupportedCapability, .typeMismatch, .unknownChoice, .invalidOperand,
    .unsupportedComparison, .invalidRange, .invalidHysteresis]
  find_code := by intro a; cases a <;> rfl

/-! ### Paths, sections and boot flags -/

/-- The path of a diagnostic. A longer one is cut before the character that the limit falls
inside. -/
def DiagnosticPath.of (path : ByteView) : DiagnosticPath :=
  if path.length > kMaxDiagnosticPathBytes then
    ⟨path.take (Utf8.backUp path kMaxDiagnosticPathBytes), true⟩
  else ⟨path, false⟩

/-- The section of a dry-run failure, derived from its stage. -/
def ApplyRejection.section (rejection : ApplyRejection) : ConfigSection :=
  match rejection.stage with
  | .actionId => .actions
  | .outputBinding => .outputs
  | .rule => .rules
  | .validation => rejection.validationSection
  | .complete | .sinkRegistration => .document

structure BootFlags where
  invalidOverride : Bool := false
  overrideReadFailed : Bool := false
  noConfigStore : Bool := false
  lightingSetupFailed : Bool := false
  deriving DecidableEq, Repr

def BootFlags.bits (flags : BootFlags) : UInt8 :=
  (if flags.invalidOverride then 0x01 else 0) ||| (if flags.overrideReadFailed then 0x02 else 0) |||
    (if flags.noConfigStore then 0x04 else 0) ||| (if flags.lightingSetupFailed then 0x08 else 0)

/-- What a boot selected, fixed until the next restart. -/
structure BootStatus where
  flags : BootFlags := {}
  active : ActiveDocument := {}
  overrideCode : DiagnosticCode := .none
  overrideValidation : ValidationCode := .none

/-! ### The encoder -/

def kConfigStatusFixedBytes : ℕ := 35

def kMaxConfigStatusBytes : ℕ := kConfigStatusFixedBytes + kMaxDiagnosticPathBytes

abbrev EncodedConfigStatus := BoundedBytes kMaxConfigStatusBytes

namespace EncodedConfigStatus

/-- Appends bytes; what does not fit is not written. -/
def write (value : EncodedConfigStatus) (bytes : List UInt8) : EncodedConfigStatus :=
  (value.append bytes).getD value

def pushZeros (value : EncodedConfigStatus) : ℕ → EncodedConfigStatus
  | 0 => value
  | n + 1 => (value.write [0]).pushZeros n

end EncodedConfigStatus

def kPathTruncatedBit : UInt8 := 0x80

def saturatedIndex (index : ℕ) : ℕ := if index > 0xFFFF then 0xFFFF else index

/-- The boot flags and the active document, at offset 2. -/
def pushBoot (value : EncodedConfigStatus) (boot : BootStatus) : EncodedConfigStatus :=
  (((value.write [boot.flags.bits]).write [code boot.active.source]).write
    (u16 boot.active.length)).write (u32 boot.active.crc32.toNat)

/-- The lengths of a transfer under way, at offset 10. -/
def pushLengths (value : EncodedConfigStatus) (transfer : TransferStatus) : EncodedConfigStatus :=
  if transfer.state ≠ .receiving then value.pushZeros 4
  else (value.write (u16 transfer.transferLength)).write (u16 transfer.receivedLength)

/-- The saved document, at offset 14. -/
def pushSaved (value : EncodedConfigStatus) (transfer : TransferStatus) : EncodedConfigStatus :=
  if transfer.result ≠ .saved then value.pushZeros 6
  else (value.write (u16 transfer.saved.length)).write (u32 transfer.saved.crc32.toNat)

/-- The diagnostic of a rejected configuration, at offset 20. -/
def pushRejection (value : EncodedConfigStatus) (transfer : TransferStatus) :
    EncodedConfigStatus :=
  if transfer.result ≠ .configRejected then value.pushZeros 5
  else
    let rejection := transfer.rejection
    (((value.write [code rejection.category]).write [code rejection.code]).write
      [code rejection.validation]).write (u16 (saturatedIndex rejection.index))

/-- The status of a rejected dry run, at offset 25. -/
def pushApply (value : EncodedConfigStatus) (transfer : TransferStatus) : EncodedConfigStatus :=
  if transfer.result ≠ .applyRejected then value.pushZeros 7
  else
    let apply := transfer.apply
    (((((value.write [code apply.stage]).write [code apply.validation]).write
      [code apply.section]).write (u16 (saturatedIndex apply.index))).write
      [code apply.binding]).write [code apply.engine]

/-- The reason of an invalid override, at offset 32. -/
def pushBootDiagnostic (value : EncodedConfigStatus) (boot : BootStatus) : EncodedConfigStatus :=
  if !boot.flags.invalidOverride then value.pushZeros 2
  else (value.write [code boot.overrideCode]).write [code boot.overrideValidation]

/-- The path of a rejected configuration, at offset 34. -/
def pushPath (value : EncodedConfigStatus) (transfer : TransferStatus) : EncodedConfigStatus :=
  if transfer.result ≠ .configRejected then value.write [0]
  else
    let path := transfer.rejection.path
    let length := UInt8.ofNat path.text.length
    (value.write [if path.truncated then length ||| kPathTruncatedBit else length]).write path.text

/-- **The config status value.** -/
def encodeConfigStatus (boot : BootStatus) (transfer : TransferStatus) : EncodedConfigStatus :=
  let value : EncodedConfigStatus := .empty
  let value := value.write [code transfer.state]
  let value := value.write [code transfer.result]
  let value := pushBoot value boot
  let value := pushLengths value transfer
  let value := pushSaved value transfer
  let value := pushRejection value transfer
  let value := pushApply value transfer
  let value := pushBootDiagnostic value boot
  pushPath value transfer

end AccessoryController.CompanionProtocol
