import AccessoryController.CompanionBle.Security
import AccessoryController.CompanionProtocol.PairingWindow

/-!
# The pairing policy of the host task

The handlers of the host task with the pairing window, the debounced user key and the guard of
the bond store. The host stack owns the slot of the store's write callback; it may leave another
function there at a sync, or inside a call that a handler makes. A record that the host writes
goes to whatever the slot holds.

Of the stored records the model keeps what a handler reads back: the peers with a bond. The
answers of the stack come with an input: the description of a connection, whether a record was
stored or a deletion succeeded, which bond was evicted.

## Main definitions

* `SecurityState`: the policy state, with the slot and the bonds of the store
* `SecurityInput`: an event with two clock readings and what its calls left in the slot
* `SecurityAct`: what a handler does to the store and to the link
* `SecurityState.step`: the handler of an input
-/

namespace AccessoryController.CompanionBle

open CompanionProtocol

/-- The identity address of a central. -/
abbrev Peer := ℕ

/-- A write function of the bond store: `guarded_store_write`, or one of the host's. -/
inductive StoreHook
  | guarded
  | host (address : ℕ)
  deriving DecidableEq, Repr

/-- A record that the host writes. A resolvable address is absent when it is all zero. -/
inductive StoreRecord
  | ourSec (peer : Peer)
  | peerSec (peer : Peer) (ltkPresent : Bool)
  | peerAddr (resolvable : Option ℕ)
  | other (objectType : ℕ)
  deriving DecidableEq, Repr

/-- The records that belong to a pairing. -/
def StoreRecord.isBondRecord : StoreRecord → Bool
  | .ourSec _ | .peerSec _ _ | .peerAddr _ => true
  | .other _ => false

/-- What the host finds of a connection. -/
structure HostConn where
  peer : Peer
  encrypted : Bool
  bonded : Bool
  keySize : ℕ
  deriving DecidableEq, Repr

/-- The security levels at which the host rejects and accepts a pairing request. -/
def kRejectPairing : ℕ := 1
def kAcceptPairing : ℕ := 0

structure SecurityState where
  window : PairingWindow
  debouncer : UserKeyDebouncer := {}
  link : LinkState := {}
  storeGuard : HookGuard StoreHook := ⟨.guarded, none⟩
  /-- `ble_hs_cfg.store_write_cb` -/
  slot : Option StoreHook := none
  smSecLvl : ℕ := kRejectPairing
  windowTimer : Option PairingClock := none
  refusedPeerRpa : Option ℕ := none
  /-- The peers whose security record the store holds. -/
  bonds : List Peer := []
  deriving DecidableEq, Repr

inductive SecurityEvent
  | userKey (level : UserKeyLevel)
  | windowTimer
  | dropTimer
  | disconnectTimer
  /-- The host has synced, and left a function in the slot. -/
  | synced (slot : Option StoreHook)
  | connect (status : ℤ) (connection : ConnHandle) (found : Option HostConn)
  | disconnect (connection : ConnHandle)
  | encryptionChange (connection : ConnHandle) (status : ℤ) (found : Option HostConn)
      (deleted : Bool)
  | pairingComplete (connection : ConnHandle) (status : ℤ)
  | repeatPairing (connection : ConnHandle) (found : Option HostConn) (deleted : Bool)
  | authorize (connection : ConnHandle)
  | otherGap
  | storeStatus (evicted : Option Peer)
  | clearBonds (cleared : List Peer)
  | storeWrite (record : StoreRecord) (stored : Bool)
  | protectedAccess (connection : ConnHandle) (found : Option HostConn)
  | disconnectAfterResponse (connection : ConnHandle)
  deriving DecidableEq, Repr

/-- An event of the connection, which `handle_security_event` handles. -/
def SecurityEvent.isGap : SecurityEvent → Bool
  | .connect _ _ _ | .disconnect _ | .encryptionChange _ _ _ _ | .pairingComplete _ _
  | .repeatPairing _ _ _ | .authorize _ | .otherGap => true
  | _ => false

/-- An event, the clock at the start of its handler and at its decision, and what a call of the
handler left in the slot, if it touched it. -/
structure SecurityInput where
  event : SecurityEvent
  first : PairingClock
  second : PairingClock
  replaced : Option (Option StoreHook) := none
  deriving DecidableEq, Repr

/-- What a handler does. -/
inductive SecurityAct
  /-- The debouncer tells a press. -/
  | pressed
  /-- A record goes to a function of the store. -/
  | reached (hook : StoreHook) (record : StoreRecord) (stored : Bool)
  | refused (record : StoreRecord)
  /-- The oldest bond makes room for a pairing. -/
  | evicted (peer : Option Peer)
  /-- An old bond goes before its central pairs again. -/
  | deletedOldBond (peer : Peer)
  /-- The keys of a rejected pairing go. -/
  | deletedRejected (peer : Peer)
  | deletedRefusedRecord (resolvable : ℕ)
  | clearedBonds
  | link (answer : LinkAnswer)
  deriving DecidableEq, Repr

namespace SecurityState

variable (s : SecurityState)

/-! ### The store -/

def storedBond (peer : Peer) : PeerBond := if peer ∈ s.bonds then .stored else .none

/-- What the link's handlers see of a connection. -/
def description (conn : HostConn) : ConnDescription where
  encrypted := conn.encrypted
  bonded := conn.bonded
  keySize := conn.keySize
  storedBond := s.storedBond conn.peer

/-- The store after a record was stored in it. -/
def recorded : StoreRecord → SecurityState
  | .peerSec peer true => { s with bonds := peer :: s.bonds }
  | .peerSec peer false => { s with bonds := s.bonds.filter (· ≠ peer) }
  | _ => s

def deletePeer (peer : Peer) (deleted : Bool) : SecurityState :=
  if deleted then { s with bonds := s.bonds.filter (· ≠ peer) } else s

/-- Deletes the device record that a refused pairing left. -/
def deleteRefusedPeerRecords : SecurityState × List SecurityAct :=
  match s.refusedPeerRpa with
  | none => (s, [])
  | some resolvable => ({ s with refusedPeerRpa := none }, [.deletedRefusedRecord resolvable])

/-! ### The guard and the window -/

def ensureStoreGuard : SecurityState × Bool :=
  ({ s with storeGuard := (s.storeGuard.ensure s.slot).1, slot := (s.storeGuard.ensure s.slot).2.1 },
    (s.storeGuard.ensure s.slot).2.2 != .missing)

/-- Closes the window, and has the host reject pairing requests. -/
def rejectPairing : SecurityState :=
  { s with smSecLvl := kRejectPairing, window := s.window.close, windowTimer := none }

/-- Applies the window to the host. Without the guard the window stays closed. -/
def applyWindowState (now : PairingClock) : SecurityState :=
  if s.window.isOpen now then
    if s.ensureStoreGuard.2 then
      { s.ensureStoreGuard.1 with smSecLvl := kAcceptPairing, windowTimer := s.window.closesAt }
    else s.ensureStoreGuard.1.rejectPairing
  else s.rejectPairing

def onUserKeyTimer (level : UserKeyLevel) (first second : PairingClock) :
    SecurityState × List SecurityAct :=
  let sampled := s.debouncer.sample level
  let s := { s with debouncer := sampled.1 }
  if !sampled.2 then (s, [])
  else if !s.ensureStoreGuard.2 then (s.ensureStoreGuard.1, [.pressed])
  else
    let s := s.ensureStoreGuard.1
    let opened := s.window.open first
    let s := { s with window := opened.1 }
    (if opened.2 then s.applyWindowState second else s, [.pressed])

/-- The function that the slot holds once the guard is installed. A record of a pairing is stored
only while the window is open; the guard reads the deadline itself. -/
def guardedStoreWrite (record : StoreRecord) (stored : Bool) (now : PairingClock) :
    SecurityState × List SecurityAct :=
  match s.storeGuard.original with
  | none => (s, [.refused record])
  | some hook =>
    let forwarded := if stored then s.recorded record else s
    if !record.isBondRecord then (forwarded, [.reached hook record stored])
    else if !s.window.isOpen now then
      ({ s with
          smSecLvl := kRejectPairing
          refusedPeerRpa :=
            match record with
            | .peerAddr (some resolvable) => some resolvable
            | _ => s.refusedPeerRpa }, [.refused record])
    else
      (if stored then
          { forwarded with link := { s.link with link := s.link.link.bondKeysWritten } }
        else forwarded, [.reached hook record stored])

/-- The host writes a record through the slot. -/
def storeWrite (record : StoreRecord) (stored : Bool) (now : PairingClock) :
    SecurityState × List SecurityAct :=
  match s.slot with
  | none => (s, [])
  | some .guarded => s.guardedStoreWrite record stored now
  | some (.host address) =>
    (if stored then s.recorded record else s, [.reached (.host address) record stored])

/-! ### The handlers -/

def replaceSlot : Option (Option StoreHook) → SecurityState
  | none => s
  | some slot => { s with slot }

/-- The store is full. The stock handler evicts the oldest bond, and may reset the slot. -/
def onStoreStatus (evicted : Option Peer) (i : SecurityInput) :
    SecurityState × List SecurityAct :=
  if !s.window.isOpen i.first then (s, [])
  else
    let s := { s with bonds := s.bonds.filter fun peer => some peer ≠ evicted }
    ((s.replaceSlot i.replaced).ensureStoreGuard.1, [.evicted evicted])

def handleConnect (status : ℤ) (connection : ConnHandle) (found : Option HostConn)
    (now : PairingClock) : SecurityState × List SecurityAct :=
  if status ≠ 0 then (s, [])
  else
    let (s, acts) := s.deleteRefusedPeerRecords
    let (link, answer) := s.link.handleConnect status connection (found.map s.description) now
    ({ s with link }, acts ++ [.link answer])

def handleDisconnect (connection : ConnHandle) : SecurityState × List SecurityAct :=
  let (s, acts) := s.deleteRefusedPeerRecords
  ({ s with link := s.link.handleDisconnect connection }, acts)

/-- A new bond closes the window; the keys of a rejected pairing are deleted. -/
def handleEncryptionChange (connection : ConnHandle) (status : ℤ) (found : Option HostConn)
    (deleted : Bool) (now : PairingClock) : SecurityState × List SecurityAct :=
  let (link, answer) :=
    s.link.handleEncryptionChange connection status (found.map s.description)
  let s := { s with link }
  match answer with
  | .verdict .newBondAccepted =>
    ({ s with window := s.window.close }.applyWindowState now, [.link answer])
  | .verdict .bondRestored => (s, [.link answer])
  | .verdict .rejectedDeleteKeys =>
    match found with
    | some conn =>
      let (s, acts) := (s.deletePeer conn.peer deleted).deleteRefusedPeerRecords
      (s, .link answer :: .deletedRejected conn.peer :: acts)
    | none =>
      let (s, acts) := s.deleteRefusedPeerRecords
      (s, .link answer :: acts)
  | .verdict .rejected =>
    let (s, acts) := s.deleteRefusedPeerRecords
    (s, .link answer :: acts)
  | _ => (s, [])

def repeatPairingAction (now : PairingClock) : RepeatPairingAction :=
  if s.window.isOpen now then .deleteOldBondAndRetry else .ignoreAndDisconnect

/-- Inside the window the old bond goes before the key exchange. -/
def handleRepeatPairing (connection : ConnHandle) (found : Option HostConn) (deleted : Bool)
    (now : PairingClock) : SecurityState × List SecurityAct :=
  let (link, answer) := s.link.handleRepeatPairing connection (found.map s.description)
    (s.repeatPairingAction now) now
  match answer, found with
  | .repeatPairing .deleteOldBondAndRetry, some conn =>
    ({ s with link }.deletePeer conn.peer deleted, [.deletedOldBond conn.peer, .link answer])
  | _, _ => ({ s with link }, [.link answer])

def clearBonds (cleared : List Peer) : SecurityState × List SecurityAct :=
  ({ s with
      bonds := s.bonds.filter fun peer => peer ∉ cleared
      link := s.link.clearBonds }, [.clearedBonds])

/-- The body of a handler that finds the guard and the window up to date. -/
def handleGap (event : SecurityEvent) (now : PairingClock) : SecurityState × List SecurityAct :=
  match event with
  | .connect status connection found => s.handleConnect status connection found now
  | .disconnect connection => s.handleDisconnect connection
  | .encryptionChange connection status found deleted =>
    s.handleEncryptionChange connection status found deleted now
  | .pairingComplete connection status =>
    ({ s with link := s.link.handlePairingComplete connection status now }, [])
  | .repeatPairing connection found deleted =>
    s.handleRepeatPairing connection found deleted now
  | .authorize connection =>
    let (link, answer) := s.link.handleAuthorize connection
    ({ s with link }, [.link answer])
  | _ => (s, [])

/-- The handlers, apart from what their calls leave in the slot. -/
def handle (i : SecurityInput) : SecurityState × List SecurityAct :=
  match i.event with
  | .userKey level => s.onUserKeyTimer level i.first i.second
  | .windowTimer => (s.applyWindowState i.first, [])
  | .dropTimer => ({ s with link := s.link.onDropTimer i.first }, [])
  | .disconnectTimer =>
    let (link, answer) := s.link.onDisconnectTimer
    ({ s with link }, [.link answer])
  | .storeWrite record stored => s.storeWrite record stored i.first
  | .clearBonds cleared => s.clearBonds cleared
  | .protectedAccess connection found =>
    let (link, code) := s.link.checkProtectedAccess connection (found.map s.description) i.first
    ({ s with link }, [.link (.attError code)])
  | .disconnectAfterResponse connection =>
    ({ s with link := s.link.scheduleDisconnect connection }, [])
  | event => (s.ensureStoreGuard.1.applyWindowState i.first).handleGap event i.second

/-- The handler of an input. -/
def step (i : SecurityInput) : SecurityState × List SecurityAct :=
  match i.event with
  | .synced slot => ({ s with slot }.ensureStoreGuard.1.applyWindowState i.first, [])
  | .storeStatus evicted => s.onStoreStatus evicted i
  | _ => ((s.handle i).1.replaceSlot i.replaced, (s.handle i).2)

/-- The state that `configure_security` leaves: the host has initialised the slot. -/
def configured (storage : BondStorage) (slot : Option StoreHook) (bonds : List Peer) :
    SecurityState :=
  ({ window := ⟨storage, none⟩, slot, bonds } : SecurityState).ensureStoreGuard.1

end SecurityState

end AccessoryController.CompanionBle
