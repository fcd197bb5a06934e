import AccessoryController.Library.Buffer
import AccessoryController.Library.LittleEndian
import AccessoryController.CompanionProtocol.ConfigStatus

/-!
# The configuration transfer

The write handler of the configuration characteristic: an upload is opened by a Start, filled by
Chunks and ended by a Commit or an Abort, by the idle timeout or by the end of the connection. It
holds at most one upload, in a buffer of fixed size. The committer parses, applies and stores a
complete upload; the handler only sees its outcome, so a write takes the committer as a function.

## Main definitions

* `ConfigTransfer`: the transfer status with the open upload
* `ConfigTransfer.handleWrite`: one write, with the idle expiry that comes before it
* `TransferCall`, `ConfigTransfer.step`: the calls that reach a transfer
-/

namespace AccessoryController.CompanionProtocol

open LittleEndian

/-- Milliseconds of a monotonic clock of which only differences are used. -/
abbrev TransferClock := ℤ

/-- An open transfer without a Start or an accepted Chunk for this long is discarded. -/
def kTransferIdleTimeout : TransferClock := 10000

/-- What the commit port reports for a complete upload. -/
inductive CommitOutcome
  | saved (document : SavedDocument)
  | configRejected (rejection : ConfigRejection)
  | applyRejected (rejection : ApplyRejection)
  | storageFailed
  deriving DecidableEq, Repr

/-- The facts about this boot that the write checks need. -/
structure ConfigTransferEnvironment where
  configStoreAvailable : Bool := false
  active : ActiveDocument := {}

structure ConfigWriteContext where
  attMtu : ℕ := 0
  now : TransferClock := 0
  deriving DecidableEq, Repr

structure ConfigWriteResponse where
  error : AttError := .none
  statusChanged : Bool := false
  enteredRestartPending : Bool := false
  readPageOffset : Option ℕ := none
  deriving DecidableEq, Repr

structure BusyCheck where
  busy : Bool := false
  statusChanged : Bool := false
  deriving DecidableEq, Repr

inductive Opcode
  | start | chunk | commit | abort | selectReadPage
  deriving DecidableEq, Repr

/-- The opcode that a byte encodes, if it is a known one. -/
def Opcode.ofByte? (byte : UInt8) : Option Opcode :=
  match byte.toNat with
  | 0x01 => some .start
  | 0x02 => some .chunk
  | 0x03 => some .commit
  | 0x04 => some .abort
  | 0x05 => some .selectReadPage
  | _ => none

/-- The opcode that a write names, if it names a known one. -/
def opcodeOf (pdu : ByteView) : Option Opcode := pdu.head?.bind Opcode.ofByte?

def kWriteHeaderBytes : ℕ := 3

def kChunkHeaderBytes : ℕ := 3

def kMinimumChunkBytes : ℕ := kChunkHeaderBytes + 1

/-- The length range of each opcode. The bound of a chunk is compared as 32-bit integers. -/
def validLength (opcode : Opcode) (length attMtu : ℕ) : Prop :=
  match opcode with
  | .start => length = 7
  | .chunk => kMinimumChunkBytes ≤ length ∧
      (length : ℤ).bmod (2 ^ 32) ≤ (attMtu : ℤ) - kWriteHeaderBytes
  | .commit | .abort => length = 1
  | .selectReadPage => length = 3

instance (opcode : Opcode) (length attMtu : ℕ) : Decidable (validLength opcode length attMtu) := by
  cases opcode <;> unfold validLength <;> infer_instance

structure Upload where
  crc32 : UInt32 := 0
  lastActivity : TransferClock := 0
  buffer : Vector UInt8 kMaxConfigBytes := Vector.replicate kMaxConfigBytes 0

structure ConfigTransfer where
  status : TransferStatus := {}
  upload : Upload := {}

/-- What a write's own checks leave: the transfer, the answer, the page a read-back selected and
the document handed to the committer, if one was. -/
structure Dispatched where
  transfer : ConfigTransfer
  error : AttError := .none
  readPageOffset : Option ℕ := none
  committed : Option ByteView := none

namespace ConfigTransfer

def receiving (t : ConfigTransfer) : Prop := t.status.state = .receiving

def restartPending (t : ConfigTransfer) : Prop := t.status.state = .restartPending

instance (t : ConfigTransfer) : Decidable t.receiving := inferInstanceAs (Decidable (_ = _))

instance (t : ConfigTransfer) : Decidable t.restartPending := inferInstanceAs (Decidable (_ = _))

/-- Ends a transfer with a result. The buffer keeps its bytes. -/
def finish (t : ConfigTransfer) (result : TransferResult) : ConfigTransfer :=
  { status := { result := result }, upload := { t.upload with crc32 := 0 } }

/-- Discards an open transfer that has been idle for the timeout, and reports whether it did. -/
def expireIfIdle (t : ConfigTransfer) (now : TransferClock) : ConfigTransfer × Bool :=
  if ¬ t.receiving ∨ now - t.upload.lastActivity < kTransferIdleTimeout then (t, false)
  else (t.finish .timedOut, true)

def checkBusy (t : ConfigTransfer) (now : TransferClock) : ConfigTransfer × BusyCheck :=
  let (expired, statusChanged) := t.expireIfIdle now
  (expired, { statusChanged, busy := expired.status.state ≠ .idle })

/-- The connection ended. -/
def interrupt (t : ConfigTransfer) : ConfigTransfer × Bool :=
  if ¬ t.receiving then (t, false) else (t.finish .interrupted, true)

/-- An accepted revert to the factory configuration. -/
def enterRestartPending (t : ConfigTransfer) : ConfigTransfer × Bool :=
  if t.status.state ≠ .idle then (t, false)
  else ({ t with status := { t.status with state := .restartPending } }, true)

/-- A write that is answered with an error and does nothing. -/
def refuse (t : ConfigTransfer) (error : AttError) : Dispatched := { transfer := t, error }

/-- What an accepted Start leaves. -/
def opened (t : ConfigTransfer) (pdu : ByteView) (now : TransferClock) : ConfigTransfer :=
  { status := { state := .receiving, transferLength := readU16 pdu 1 }
    upload := { t.upload with crc32 := UInt32.ofNat (readU32 pdu 3), lastActivity := now } }

def start (environment : ConfigTransferEnvironment) (pdu : ByteView)
    (context : ConfigWriteContext) (t : ConfigTransfer) : Dispatched :=
  let totalLength := readU16 pdu 1
  if context.attMtu < kMinimumTransferMtu then t.refuse .mtuTooSmall
  else if totalLength = 0 then t.refuse .invalidPdu
  else if kMaxConfigBytes < totalLength then t.refuse .tooLarge
  else if t.receiving then t.refuse .busy
  else if !environment.configStoreAvailable then t.refuse .storageFailure
  else { transfer := t.opened pdu context.now }

/-- What an accepted Chunk leaves: its data behind the bytes received so far. -/
def appended (t : ConfigTransfer) (data : ByteView) (now : TransferClock) : ConfigTransfer :=
  { status := { t.status with
      receivedLength := (t.status.receivedLength + data.length) % 2 ^ 16 }
    upload := { t.upload with
      buffer := Buffer.storeAt t.upload.buffer t.status.receivedLength data
      lastActivity := now } }

def chunk (pdu : ByteView) (context : ConfigWriteContext) (t : ConfigTransfer) : Dispatched :=
  let data := pdu.drop kChunkHeaderBytes
  if ¬ t.receiving then t.refuse .invalidState
  else if readU16 pdu 1 ≠ t.status.receivedLength then t.refuse .offsetMismatch
  else if t.status.transferLength < t.status.receivedLength + data.length then
    t.refuse .invalidPdu
  else { transfer := t.appended data context.now }

/-- The bytes of the buffer that a commit covers. -/
def document (t : ConfigTransfer) : ByteView :=
  t.upload.buffer.toList.take t.status.transferLength

/-- The status that a commit outcome leaves. -/
def settle (t : ConfigTransfer) : CommitOutcome → ConfigTransfer × AttError
  | .saved document =>
    let t := t.finish .saved
    ({ t with status := { t.status with state := .restartPending, saved := document } }, .none)
  | .configRejected rejection =>
    let t := t.finish .configRejected
    ({ t with status := { t.status with rejection } }, .configRejected)
  | .applyRejected rejection =>
    let t := t.finish .applyRejected
    ({ t with status := { t.status with apply := rejection } }, .applyRejected)
  | .storageFailed => (t.finish .storageFailed, .storageFailure)

def commit (committer : ByteView → CommitOutcome) (t : ConfigTransfer) : Dispatched :=
  if ¬ t.receiving then t.refuse .invalidState
  else if t.status.receivedLength < t.status.transferLength then t.refuse .incomplete
  else if crc32 t.document ≠ t.upload.crc32 then
    { transfer := t.finish .checksumMismatch, error := .checksumMismatch }
  else
    let (settled, error) := t.settle (committer t.document)
    { transfer := settled, error, committed := some t.document }

def abort (t : ConfigTransfer) : Dispatched :=
  { transfer := if t.receiving then t.finish .aborted else t }

def selectReadPage (environment : ConfigTransferEnvironment) (pdu : ByteView)
    (t : ConfigTransfer) : Dispatched :=
  let offset := readU16 pdu 1
  if environment.active.length < offset then t.refuse .invalidPdu
  else { transfer := t, readPageOffset := some offset }

/-- The common checks of a write, then those of its opcode. -/
def dispatch (environment : ConfigTransferEnvironment) (committer : ByteView → CommitOutcome)
    (pdu : ByteView) (context : ConfigWriteContext) (t : ConfigTransfer) : Dispatched :=
  if pdu.isEmpty then t.refuse .invalidAttributeValueLength
  else
    match opcodeOf pdu with
    | none => t.refuse .unsupportedOperation
    | some opcode =>
      if ¬ validLength opcode pdu.length context.attMtu then
        t.refuse .invalidAttributeValueLength
      else if t.restartPending then t.refuse .busy
      else
        match opcode with
        | .start => t.start environment pdu context
        | .chunk => t.chunk pdu context
        | .commit => t.commit committer
        | .abort => t.abort
        | .selectReadPage => t.selectReadPage environment pdu

end ConfigTransfer

/-- A write's answer, with the document handed to the committer, if one was. -/
structure WriteAnswer where
  response : ConfigWriteResponse
  committed : Option ByteView

/-- One write: the idle expiry, then the write's own checks. -/
def ConfigTransfer.handleWrite (environment : ConfigTransferEnvironment)
    (committer : ByteView → CommitOutcome) (pdu : ByteView) (context : ConfigWriteContext)
    (t : ConfigTransfer) : ConfigTransfer × WriteAnswer :=
  let d := (t.expireIfIdle context.now).1.dispatch environment committer pdu context
  (d.transfer,
    { response :=
        { error := d.error
          statusChanged := d.transfer.status.state ≠ t.status.state ∨
            d.transfer.status.result ≠ t.status.result
          enteredRestartPending := t.status.state ≠ .restartPending ∧ d.transfer.restartPending
          readPageOffset := d.readPageOffset }
      committed := d.committed })

/-- The calls that reach a transfer. A write brings the behaviour of the committer at that
time. -/
inductive TransferCall
  | handleWrite (pdu : ByteView) (context : ConfigWriteContext)
      (committer : ByteView → CommitOutcome)
  | expireIfIdle (now : TransferClock)
  | checkBusy (now : TransferClock)
  | interrupt
  | enterRestartPending

inductive TransferAnswer
  | written (answer : WriteAnswer)
  | changed (changed : Bool)
  | busy (check : BusyCheck)

/-- One call on a transfer. -/
def ConfigTransfer.step (environment : ConfigTransferEnvironment) (t : ConfigTransfer) :
    TransferCall → ConfigTransfer × TransferAnswer
  | .handleWrite pdu context committer =>
    (t.handleWrite environment committer pdu context).map id .written
  | .expireIfIdle now => (t.expireIfIdle now).map id .changed
  | .checkBusy now => (t.checkBusy now).map id .busy
  | .interrupt => t.interrupt.map id .changed
  | .enterRestartPending => t.enterRestartPending.map id .changed

end AccessoryController.CompanionProtocol
