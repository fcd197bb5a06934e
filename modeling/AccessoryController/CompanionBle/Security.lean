import AccessoryController.CompanionProtocol.LinkSecurity

/-!
# The link's handlers

The host task feeds the link policy with the events of its stack: connections, encryption
changes, pairings, accesses to protected attributes and timers. What the stack finds out itself
(the description of a connection, the window's answer to a repeated pairing, a stored bond
record) comes with the event.

## Main definitions

* `LinkState`: the link, the connection it is on, and the pending disconnect
* `LinkEvent`: what may happen, in any order
* `step`: the handler of an event and what it answers
-/

namespace AccessoryController.CompanionBle

open CompanionProtocol

/-- A connection handle; `none` stands for `BLE_HS_CONN_HANDLE_NONE`. -/
abbrev ConnHandle := Option ℕ

/-- What the host knows of a connection, and whether it has a bond with its central. -/
structure ConnDescription where
  encrypted : Bool
  bonded : Bool
  keySize : ℕ
  storedBond : PeerBond
  deriving DecidableEq, Repr

def ConnDescription.encryption (description : ConnDescription) : LinkEncryption :=
  if description.encrypted then .encrypted else .unencrypted

inductive RepeatPairingAction
  | deleteOldBondAndRetry
  | ignoreAndDisconnect
  deriving DecidableEq, Repr

structure LinkState where
  link : LinkSecurity := {}
  connection : ConnHandle := none
  disconnectConnection : ConnHandle := none
  /-- The time that the drop timer is armed for. -/
  dropTimer : Option PairingClock := none
  deriving DecidableEq, Repr

/-- An event of the host task, with what the host finds out while it is handled. -/
inductive LinkEvent
  | connect (status : ℤ) (connection : ConnHandle) (description : Option ConnDescription)
      (now : PairingClock)
  | disconnect (connection : ConnHandle)
  | encryptionChange (connection : ConnHandle) (status : ℤ)
      (description : Option ConnDescription)
  | pairingComplete (connection : ConnHandle) (status : ℤ) (now : PairingClock)
  | repeatPairing (connection : ConnHandle) (description : Option ConnDescription)
      (action : RepeatPairingAction) (now : PairingClock)
  | authorize (connection : ConnHandle)
  | bondRecordStored
  | protectedAccess (connection : ConnHandle) (description : Option ConnDescription)
      (now : PairingClock)
  | clearBonds
  | dropTimer (now : PairingClock)
  | disconnectTimer
  | disconnectAfterResponse (connection : ConnHandle)
  deriving DecidableEq, Repr

/-- What the handler of an event does or returns outside its state. -/
inductive LinkAnswer
  | done
  | securityInitiated
  | verdict (verdict : EncryptionVerdict)
  | repeatPairing (action : RepeatPairingAction)
  | authorized (accept : Bool)
  | attError (code : ℕ)
  | terminated (connection : ConnHandle)
  deriving DecidableEq, Repr

namespace LinkState

variable (s : LinkState)

def scheduleDisconnect (connection : ConnHandle) : LinkState :=
  if connection = none then s else { s with disconnectConnection := connection }

/-- Restarts or stops the drop timer from the link's deadline. -/
def rearmDropTimer : LinkState :=
  { s with dropTimer := if s.connection = none then none else s.link.dropDeadline }

def handleConnect (status : ℤ) (connection : ConnHandle) (description : Option ConnDescription)
    (now : PairingClock) : LinkState × LinkAnswer :=
  if status ≠ 0 then (s, .done)
  else
    (rearmDropTimer
        { s with connection, disconnectConnection := none, link := LinkSecurity.connected now },
      -- A bonded central is asked to re-encrypt at once.
      match description with
      | some description => if description.storedBond = .stored then .securityInitiated else .done
      | none => .done)

def handleDisconnect (connection : ConnHandle) : LinkState :=
  if connection ≠ s.connection then s
  else { s with connection := none, disconnectConnection := none, dropTimer := none }

/-- The link that the handler reports: nothing is claimed of a failed encryption. -/
def encryptedLink (status : ℤ) (description : Option ConnDescription) : EncryptedLink :=
  match description with
  | some description =>
    if status = 0 then
      { bonded := description.bonded, keySize := description.keySize,
        peerBond := description.storedBond }
    else {}
  | none => {}

def handleEncryptionChange (connection : ConnHandle) (status : ℤ)
    (description : Option ConnDescription) : LinkState × LinkAnswer :=
  if connection ≠ s.connection then (s, .done)
  else
    let (link, verdict) := s.link.encrypted (encryptedLink status description)
    let s := { s with link }
    (match verdict with
      | .newBondAccepted => s.rearmDropTimer
      | .bondRestored => s.rearmDropTimer
      | .rejectedDeleteKeys => s.scheduleDisconnect connection
      | .rejected => s.scheduleDisconnect connection, .verdict verdict)

def acceptedPairingPdu (now : PairingClock) : LinkState :=
  rearmDropTimer { s with link := s.link.acceptedPairingPdu now }

def handlePairingComplete (connection : ConnHandle) (status : ℤ) (now : PairingClock) :
    LinkState :=
  if connection = s.connection ∧ status = 0 then s.acceptedPairingPdu now else s

def handleRepeatPairing (connection : ConnHandle) (description : Option ConnDescription)
    (action : RepeatPairingAction) (now : PairingClock) : LinkState × LinkAnswer :=
  if connection = s.connection ∧ description.isSome ∧ action = .deleteOldBondAndRetry then
    (s.acceptedPairingPdu now, .repeatPairing .deleteOldBondAndRetry)
  else (s.scheduleDisconnect connection, .repeatPairing .ignoreAndDisconnect)

def linkHasAcceptedBond (connection : ConnHandle) : Bool :=
  connection ≠ none && connection == s.connection && s.link.accepted

def handleAuthorize (connection : ConnHandle) : LinkState × LinkAnswer :=
  if s.linkHasAcceptedBond connection then (s, .authorized true)
  else (s.scheduleDisconnect connection, .authorized false)

/-- The check of a protected attribute. The controller's own accesses come without a
connection. -/
def checkProtectedAccess (connection : ConnHandle) (description : Option ConnDescription)
    (now : PairingClock) : LinkState × ℕ :=
  if connection = none then (s, 0)
  else
    match description with
    | none => (s, attErrorCode .insufficientAuthentication)
    | some description =>
      if connection ≠ s.connection then (s, attErrorCode .insufficientAuthentication)
      else
        let (link, access) :=
          s.link.checkProtectedAccess now description.encryption description.storedBond
        let s := { s with link }
        (if access = .insufficientAuthenticationAndDisconnect then s.scheduleDisconnect connection
          else s.rearmDropTimer, attErrorCode access)

def clearBonds : LinkState := rearmDropTimer { s with link := s.link.revokeBond }

def onDropTimer (now : PairingClock) : LinkState :=
  let s := { s with dropTimer := none }
  if s.connection = none then s
  else if s.link.mustDrop now then s.scheduleDisconnect s.connection
  else s.rearmDropTimer

def onDisconnectTimer : LinkState × LinkAnswer :=
  ({ s with disconnectConnection := none },
    if s.disconnectConnection = none then .done else .terminated s.disconnectConnection)

end LinkState

/-- Handles one event. -/
def step (s : LinkState) : LinkEvent → LinkState × LinkAnswer
  | .connect status connection description now =>
    s.handleConnect status connection description now
  | .disconnect connection => (s.handleDisconnect connection, .done)
  | .encryptionChange connection status description =>
    s.handleEncryptionChange connection status description
  | .pairingComplete connection status now => (s.handlePairingComplete connection status now, .done)
  | .repeatPairing connection description action now =>
    s.handleRepeatPairing connection description action now
  | .authorize connection => s.handleAuthorize connection
  | .bondRecordStored => ({ s with link := s.link.bondKeysWritten }, .done)
  | .protectedAccess connection description now =>
    let (s, code) := s.checkProtectedAccess connection description now
    (s, .attError code)
  | .clearBonds => (s.clearBonds, .done)
  | .dropTimer now => (s.onDropTimer now, .done)
  | .disconnectTimer => s.onDisconnectTimer
  | .disconnectAfterResponse connection => (s.scheduleDisconnect connection, .done)

end AccessoryController.CompanionBle
