import AccessoryController.CompanionProtocol.LivePacket
import AccessoryController.Library.Machine

/-!
# The extensible live stream

The pacing of the live signals on one connection. An offer reads the signals in rotating handle
order, packs the records that are due into one packet and attempts to queue it. The records of
an accepted packet are remembered, by parsing the packet again; a record is due when it differs
from the remembered one or was accepted at least a second ago.

## Main definitions

* `ExtensibleLiveSignalStream`: the state of a connection
* `streaming`, `sampleDue`, `recordDue`: the conditions of an offer and of a record
* `rememberAcceptedRecords`: the parser of an accepted packet
* `offer`: one sampling pass
* `StreamCall`, `step`: the calls of a connection as the inputs of a machine
* `Move`, `attempted`, `restarts`: the calls of a run, with the streams that they met
-/

namespace AccessoryController.CompanionProtocol

open LittleEndian VehicleSignals

/-- Milliseconds on the clock of the stream. -/
abbrev LiveStreamClock := ℤ

def kLiveFrameInterval : LiveStreamClock := 100

def kLiveHeartbeatInterval : LiveStreamClock := 1000

def kMinLiveSignalsAttMtu : ℕ := 64

def kMaxRecordBytes : ℕ := 9

structure Conditions where
  notificationsEnabled : Bool := false
  linkSecured : Bool := false
  attMtu : ℕ := 0
  catalogToken : UInt32 := 0
  deriving DecidableEq, Repr

/-- The last record of a handle that the stack accepted; without a time there is none. -/
structure AcceptedRecord where
  bytes : List UInt8 := []
  acceptedAt : Option LiveStreamClock := none
  deriving DecidableEq, Repr

/-- The state of a stream; the accepted records are indexed by their handles. -/
structure ExtensibleLiveSignalStream where
  conditions : Conditions := {}
  accepted : ℕ → AcceptedRecord := fun _ => {}
  lastSample : Option LiveStreamClock := none
  emptyPacketAcceptedAt : Option LiveStreamClock := none
  nextSequence : UInt16 := 0
  nextHandle : ℕ := 1
  configPaused : Bool := false

/-- The packet of one attempt and the answer of the sink. -/
structure Attempt where
  packet : ExtensibleLiveSignalPacket
  queued : Bool

def nextHandle (handle signalCount : ℕ) : ℕ := if signalCount ≤ handle then 1 else handle + 1

/-- A time that is unset, ahead of the clock, or at least an interval ago. -/
def elapsed (since : Option LiveStreamClock) (interval now : LiveStreamClock) : Prop :=
  match since with
  | none => True
  | some time => now < time ∨ interval ≤ now - time

instance (since : Option LiveStreamClock) (interval now : LiveStreamClock) :
    Decidable (elapsed since interval now) := by
  unfold elapsed
  cases since <;> infer_instance

namespace ExtensibleLiveSignalStream

variable (catalog : SignalCatalogExport) (provider : SignalCatalogView)

/-! ### Conditions -/

def streaming (s : ExtensibleLiveSignalStream) : Bool :=
  catalog.available && s.conditions.notificationsEnabled && s.conditions.linkSecured &&
    decide (kMinLiveSignalsAttMtu ≤ s.conditions.attMtu) && decide (s.conditions.catalogToken ≠ 0)

/-- Forgets the accepted records and starts the packet sequence and the rotation again. -/
def restartStream (s : ExtensibleLiveSignalStream) : ExtensibleLiveSignalStream :=
  { s with
    accepted := fun _ => {}
    emptyPacketAcceptedAt := none
    nextSequence := 0
    nextHandle := 1 }

/-- Changes the conditions; a stream that begins to stream restarts. -/
def updateConditions (s : ExtensibleLiveSignalStream) (update : Conditions → Conditions) :
    ExtensibleLiveSignalStream :=
  let s' := { s with conditions := update s.conditions }
  if !s.streaming catalog && s'.streaming catalog then s'.restartStream else s'

def setNotificationsEnabled (s : ExtensibleLiveSignalStream) (enabled : Bool) :
    ExtensibleLiveSignalStream :=
  s.updateConditions catalog fun conditions => { conditions with notificationsEnabled := enabled }

def setLinkSecured (s : ExtensibleLiveSignalStream) (secured : Bool) :
    ExtensibleLiveSignalStream :=
  s.updateConditions catalog fun conditions => { conditions with linkSecured := secured }

def setAttMtu (s : ExtensibleLiveSignalStream) (mtu : ℕ) : ExtensibleLiveSignalStream :=
  s.updateConditions catalog fun conditions => { conditions with attMtu := mtu }

/-- A changed token restarts the stream, whether it streams or not. -/
def setCatalogToken (s : ExtensibleLiveSignalStream)
    (token : UInt32) : ExtensibleLiveSignalStream :=
  if s.conditions.catalogToken = token then s
  else { s with conditions := { s.conditions with catalogToken := token } }.restartStream

def setConfigPaused (s : ExtensibleLiveSignalStream) (paused : Bool) :
    ExtensibleLiveSignalStream :=
  { s with configPaused := paused }

/-- Clears every field of the state. -/
def resetConnection (s : ExtensibleLiveSignalStream) : ExtensibleLiveSignalStream :=
  { s with
    conditions := {}
    accepted := fun _ => {}
    lastSample := none
    emptyPacketAcceptedAt := none
    nextSequence := 0
    nextHandle := 1
    configPaused := false }

/-! ### Pacing -/

def sampleDue (s : ExtensibleLiveSignalStream) (now : LiveStreamClock) : Prop :=
  elapsed s.lastSample kLiveFrameInterval now

/-- The record of a packet that holds a single one is due. -/
def recordDue (s : ExtensibleLiveSignalStream) (handle : ℕ)
    (singleRecord : ExtensibleLiveSignalPacket) (now : LiveStreamClock) : Prop :=
  handle ≠ 0 ∧ handle ≤ catalog.signalCount ∧
    kExtensibleLiveSignalHeaderBytes < singleRecord.bytes.length ∧
    ((s.accepted handle).acceptedAt = none ∨
      (s.accepted handle).bytes ≠ singleRecord.bytes.drop kExtensibleLiveSignalHeaderBytes ∨
      elapsed (s.accepted handle).acceptedAt kLiveHeartbeatInterval now)

def emptyPacketDue (s : ExtensibleLiveSignalStream) (now : LiveStreamClock) : Prop :=
  elapsed s.emptyPacketAcceptedAt kLiveHeartbeatInterval now

instance (s : ExtensibleLiveSignalStream) (now : LiveStreamClock) : Decidable (s.sampleDue now) :=
  inferInstanceAs (Decidable (elapsed _ _ _))

instance (s : ExtensibleLiveSignalStream) (now : LiveStreamClock) :
    Decidable (s.emptyPacketDue now) :=
  inferInstanceAs (Decidable (elapsed _ _ _))

instance (s : ExtensibleLiveSignalStream) (handle : ℕ) (singleRecord : ExtensibleLiveSignalPacket)
    (now : LiveStreamClock) : Decidable (s.recordDue catalog handle singleRecord now) := by
  unfold recordDue
  infer_instance

/-! ### The memory of accepted records -/

/-- The parser's loop over the bytes after the header; it stops at a malformed record. `fuel`
bounds the number of records. -/
def rememberLoop (now : LiveStreamClock) :
    ℕ → (ℕ → AcceptedRecord) → List UInt8 → ℕ → AcceptedRecord
  | _, accepted, [] => accepted
  | 0, accepted, _ :: _ => accepted
  | fuel + 1, accepted, length :: rest =>
    let recordSize := 1 + length.toNat
    if kMaxRecordBytes < recordSize ∨ (length :: rest).length < recordSize ∨
        recordSize < kExtensibleLiveSignalRecordHeaderBytes then accepted
    else
      let handle := readU16 (length :: rest) 1
      if handle = 0 ∨ catalog.signalCount < handle then accepted
      else
        rememberLoop now fuel
          (Function.update accepted handle ⟨(length :: rest).take recordSize, some now⟩)
          ((length :: rest).drop recordSize)

def rememberAcceptedRecords (s : ExtensibleLiveSignalStream) (packet : ExtensibleLiveSignalPacket)
    (now : LiveStreamClock) : ExtensibleLiveSignalStream :=
  let records := packet.bytes.drop kExtensibleLiveSignalHeaderBytes
  { s with accepted := rememberLoop catalog now records.length s.accepted records }

/-! ### Offers -/

/-- What an offer is made with: the clock, whether telemetry has started, the provider's answers
and the sink's. -/
structure Offer where
  now : LiveStreamClock
  telemetryStarted : Bool
  read : SignalId → SignalResult SignalReading
  tryQueue : ExtensibleLiveSignalPacket → Bool

/-- A builder for the packets of an offer. -/
def builder (s : ExtensibleLiveSignalStream) (o : Offer) : ExtensibleLiveSignalPacketBuilder :=
  .create catalog s.conditions.catalogToken s.nextSequence o.telemetryStarted s.conditions.attMtu

/-- The record of a handle can be built, and is due. -/
def handleDue (s : ExtensibleLiveSignalStream) (o : Offer) (handle : ℕ) : Prop :=
  let single := (s.builder catalog o).appendResult catalog provider handle
    (o.read (catalog.providerIdForHandle handle))
  single.2 = true ∧ s.recordDue catalog handle single.1.packet o.now

instance (s : ExtensibleLiveSignalStream) (o : Offer) (handle : ℕ) :
    Decidable (s.handleDue catalog provider o handle) := by
  unfold handleDue
  infer_instance

/-- The outcome of the sampling loop. -/
structure Sampled where
  builder : ExtensibleLiveSignalPacketBuilder
  cursorAfterAttempt : ℕ
  appended : Bool

/-- The sampling loop over the handles that remain to be visited; it stops at the first due
record that the packet refuses. -/
def sampleLoop (s : ExtensibleLiveSignalStream) (o : Offer) : ℕ → ℕ → Sampled → Sampled
  | 0, _, sampled => sampled
  | visits + 1, handle, sampled =>
    let following := CompanionProtocol.nextHandle handle catalog.signalCount
    if s.handleDue catalog provider o handle then
      match sampled.builder.appendResult catalog provider handle
        (o.read (catalog.providerIdForHandle handle)) with
      | (builder, false) => { sampled with builder, cursorAfterAttempt := handle }
      | (builder, true) =>
        s.sampleLoop o visits following ⟨builder, following, true⟩
    else s.sampleLoop o visits following sampled

/-- **One sampling pass.** At most one packet is attempted; the cursor and the sequence number
advance with the attempt, whether the sink accepts the packet or refuses it. -/
def offer (s : ExtensibleLiveSignalStream) (o : Offer) :
    ExtensibleLiveSignalStream × Option Attempt :=
  if !s.streaming catalog ∨ s.configPaused ∨ ¬ s.sampleDue o.now then (s, none)
  else
    let s := { s with lastSample := some o.now }
    let builder := s.builder catalog o
    if !builder.valid then (s, none)
    else if catalog.signalCount = 0 then
      if ¬ s.emptyPacketDue o.now then (s, none)
      else
        let s := { s with nextSequence := s.nextSequence + 1 }
        if o.tryQueue builder.packet then
          ({ s with emptyPacketAcceptedAt := some o.now }, some ⟨builder.packet, true⟩)
        else (s, some ⟨builder.packet, false⟩)
    else
      let sampled := s.sampleLoop catalog provider o catalog.signalCount s.nextHandle
        ⟨builder, s.nextHandle, false⟩
      if !sampled.appended then (s, none)
      else
        let packet := sampled.builder.packet
        let s := { s with
          nextHandle := sampled.cursorAfterAttempt
          nextSequence := s.nextSequence + 1 }
        if o.tryQueue packet then
          (s.rememberAcceptedRecords catalog packet o.now, some ⟨packet, true⟩)
        else (s, some ⟨packet, false⟩)

/-! ### The calls of a connection -/

inductive StreamCall
  | setNotificationsEnabled (enabled : Bool)
  | setLinkSecured (secured : Bool)
  | setAttMtu (mtu : ℕ)
  | setCatalogToken (token : UInt32)
  | setConfigPaused (paused : Bool)
  | resetConnection
  | offer (o : Offer)

/-- One call, with the attempt it made. -/
def step (s : ExtensibleLiveSignalStream) : StreamCall →
    ExtensibleLiveSignalStream × Option Attempt
  | .setNotificationsEnabled enabled => (s.setNotificationsEnabled catalog enabled, none)
  | .setLinkSecured secured => (s.setLinkSecured catalog secured, none)
  | .setAttMtu mtu => (s.setAttMtu catalog mtu, none)
  | .setCatalogToken token => (s.setCatalogToken token, none)
  | .setConfigPaused paused => (s.setConfigPaused paused, none)
  | .resetConnection => (s.resetConnection, none)
  | .offer o => s.offer catalog provider o

/-- A call of a run, with the stream that it met. -/
abbrev Move := ExtensibleLiveSignalStream × StreamCall

/-- The attempt of a move. -/
def attempted (move : Move) : Option Attempt := (move.1.step catalog provider move.2).2

/-- The stream starts again on a call: a connection reset, a changed token, or conditions under
which it begins to stream. -/
def restarts (s : ExtensibleLiveSignalStream) (call : StreamCall) : Prop :=
  match call with
  | .resetConnection => True
  | .setCatalogToken token => s.conditions.catalogToken ≠ token
  | call => s.streaming catalog = false ∧ (s.step catalog provider call).1.streaming catalog = true

instance (s : ExtensibleLiveSignalStream) (call : StreamCall) :
    Decidable (s.restarts catalog provider call) := by
  unfold restarts
  split <;> infer_instance

end ExtensibleLiveSignalStream

end AccessoryController.CompanionProtocol
