import Mathlib.Order.Basic
import Mathlib.Data.Int.Order.Basic

/-!
# Link security

Access control of the single companion connection. A link becomes trusted only after encryption
with an accepted, stored bond; until then it may hold the connection for a bounded time.

## Main definitions

* `LinkSecurity`: what is known of the link
* `LinkSecurity.encrypted`, `LinkSecurity.checkProtectedAccess`: the two decisions
* `LinkSecurity.dropDeadline`, `LinkSecurity.mustDrop`: how long an untrusted link may stay

## Main results

* `attErrorCode_eq_zero`: only an allowed access has no error
* `LinkSecurity.mustDrop_of_absolute`: nothing extends the absolute limit
-/

namespace AccessoryController.CompanionProtocol

/-- Monotonic milliseconds since boot. -/
abbrev PairingClock := ℤ

/-- How long an untrusted link may stay idle. -/
def kUnbondedLinkIdleLimit : PairingClock := 30000

/-- How long an untrusted link may stay at all. -/
def kUnbondedLinkAbsoluteLimit : PairingClock := 90000

/-- Only full-size keys make an accepted bond. -/
def kRequiredEncryptionKeySize : ℕ := 16

def kInsufficientAuthentication : ℕ := 0x05
def kInsufficientEncryption : ℕ := 0x0F

inductive LinkEncryption
  | unencrypted
  | encrypted
  deriving DecidableEq, Repr

/-- Whether a bond is stored for the central's identity. -/
inductive PeerBond
  | none
  | stored
  deriving DecidableEq, Repr

/-- The outcome of an access to a protected attribute. -/
inductive ProtectedAccess
  | allow
  | insufficientAuthentication
  | insufficientEncryption
  | insufficientAuthenticationAndDisconnect
  deriving DecidableEq, Repr

/-- The link's security state once encryption completed. -/
structure EncryptedLink where
  bonded : Bool := false
  keySize : ℕ := 0
  peerBond : PeerBond := .none
  deriving DecidableEq, Repr

inductive EncryptionVerdict
  | bondRestored
  | newBondAccepted
  | rejected
  | rejectedDeleteKeys
  deriving DecidableEq, Repr

/-- The ATT error of an access, 0 when it is allowed. -/
def attErrorCode : ProtectedAccess → ℕ
  | .allow => 0
  | .insufficientEncryption => kInsufficientEncryption
  | .insufficientAuthentication => kInsufficientAuthentication
  | .insufficientAuthenticationAndDisconnect => kInsufficientAuthentication

@[simp] theorem attErrorCode_eq_zero {access : ProtectedAccess} :
    attErrorCode access = 0 ↔ access = .allow := by
  cases access <;> simp [attErrorCode, kInsufficientEncryption, kInsufficientAuthentication]

def isAcceptedBond (link : EncryptedLink) : Bool :=
  link.bonded && link.keySize == kRequiredEncryptionKeySize && link.peerBond == .stored

/-- An accepted bond is stored on both sides of the link, under a 16-byte key. -/
theorem isAcceptedBond_iff {link : EncryptedLink} :
    isAcceptedBond link = true ↔
      link.bonded = true ∧ link.keySize = 16 ∧ link.peerBond = .stored := by
  simp [isAcceptedBond, kRequiredEncryptionKeySize, and_assoc]

theorem isAcceptedBond_default : isAcceptedBond {} = false := rfl

/-- What the controller knows of its link. -/
structure LinkSecurity where
  connectedAt : PairingClock := 0
  idleSince : PairingClock := 0
  rejectionSeen : Bool := false
  keysWritten : Bool := false
  accepted : Bool := false
  deriving DecidableEq, Repr

variable (now : PairingClock)

namespace LinkSecurity

/-- A central connected: any previous link's state is forgotten. -/
def connected (now : PairingClock) : LinkSecurity := { connectedAt := now, idleSince := now }

def bondKeysWritten (l : LinkSecurity) : LinkSecurity := { l with keysWritten := true }

def acceptedPairingPdu (l : LinkSecurity) (now : PairingClock) : LinkSecurity :=
  { l with idleSince := now }

def encrypted (l : LinkSecurity) (link : EncryptedLink) : LinkSecurity × EncryptionVerdict :=
  let accepted := isAcceptedBond link
  ({ l with accepted },
    if accepted then
      if l.keysWritten then .newBondAccepted else .bondRestored
    else
      if l.keysWritten then .rejectedDeleteKeys else .rejected)

def revokeBond (l : LinkSecurity) : LinkSecurity := { l with accepted := false }

/-- The first rejection of an unencrypted link restarts its idle period. -/
def noteRejection (l : LinkSecurity) (now : PairingClock) : LinkSecurity :=
  if l.rejectionSeen then l else { l with rejectionSeen := true, idleSince := max l.idleSince now }

def checkProtectedAccess (l : LinkSecurity) (now : PairingClock) (encryption : LinkEncryption)
    (peerBond : PeerBond) : LinkSecurity × ProtectedAccess :=
  if l.accepted then (l, .allow)
  else if encryption = .encrypted then (l, .insufficientAuthenticationAndDisconnect)
  else (l.noteRejection now,
    if peerBond = .stored then .insufficientEncryption else .insufficientAuthentication)

/-- When an untrusted link has been idle for too long. -/
def idleDeadline (l : LinkSecurity) : PairingClock := l.idleSince + kUnbondedLinkIdleLimit

/-- When the link must be dropped, `none` once its bond is accepted. -/
def dropDeadline (l : LinkSecurity) : Option PairingClock :=
  if l.accepted then none
  else some (min l.idleDeadline (l.connectedAt + kUnbondedLinkAbsoluteLimit))

def mustDrop (l : LinkSecurity) (now : PairingClock) : Bool :=
  match l.dropDeadline with
  | none => false
  | some deadline => decide (deadline ≤ now)

@[simp] theorem accepted_connected : (connected now).accepted = false := rfl
@[simp] theorem connectedAt_connected : (connected now).connectedAt = now := rfl
@[simp] theorem rejectionSeen_connected : (connected now).rejectionSeen = false := rfl

section

variable (l : LinkSecurity) (now : PairingClock) (encryption : LinkEncryption)
  (peerBond : PeerBond)

@[simp] theorem accepted_noteRejection : (l.noteRejection now).accepted = l.accepted := by
  unfold noteRejection; split <;> rfl

@[simp] theorem connectedAt_noteRejection :
    (l.noteRejection now).connectedAt = l.connectedAt := by
  unfold noteRejection; split <;> rfl

@[simp] theorem rejectionSeen_noteRejection : (l.noteRejection now).rejectionSeen = true := by
  unfold noteRejection; split <;> simp_all

theorem noteRejection_of_rejectionSeen (seen : l.rejectionSeen = true) :
    l.noteRejection now = l := if_pos seen

/-- An access leaves the link alone or notes a rejection. -/
theorem checkProtectedAccess_fst :
    (l.checkProtectedAccess now encryption peerBond).1 = l ∨
      (l.checkProtectedAccess now encryption peerBond).1 = l.noteRejection now := by
  unfold checkProtectedAccess
  by_cases accepted : l.accepted
  · exact Or.inl (by rw [if_pos accepted])
  · rw [if_neg accepted]
    by_cases ciphered : encryption = .encrypted
    · exact Or.inl (by rw [if_pos ciphered])
    · exact Or.inr (by rw [if_neg ciphered])

@[simp] theorem accepted_checkProtectedAccess :
    (l.checkProtectedAccess now encryption peerBond).1.accepted = l.accepted := by
  rcases l.checkProtectedAccess_fst now encryption peerBond with h | h <;> simp [h]

@[simp] theorem connectedAt_checkProtectedAccess :
    (l.checkProtectedAccess now encryption peerBond).1.connectedAt = l.connectedAt := by
  rcases l.checkProtectedAccess_fst now encryption peerBond with h | h <;> simp [h]

/-- Only an accepted link is allowed. -/
theorem checkProtectedAccess_eq_allow :
    (l.checkProtectedAccess now encryption peerBond).2 = .allow ↔ l.accepted = true := by
  unfold checkProtectedAccess
  by_cases accepted : l.accepted
  · simp [accepted]
  · rw [if_neg accepted]
    by_cases ciphered : encryption = .encrypted
    · simp [ciphered, accepted]
    · cases peerBond <;> simp [ciphered, accepted]

/-- An access that moves the idle deadline is the first rejection. -/
theorem rejectionSeen_of_idleDeadline_ne
    (moved : (l.checkProtectedAccess now encryption peerBond).1.idleDeadline ≠ l.idleDeadline) :
    l.rejectionSeen = false ∧
      (l.checkProtectedAccess now encryption peerBond).1.rejectionSeen = true := by
  rcases l.checkProtectedAccess_fst now encryption peerBond with h | h
  · exact absurd (by rw [h]) moved
  · refine ⟨?_, by rw [h, rejectionSeen_noteRejection]⟩
    by_contra seen
    rw [h, l.noteRejection_of_rejectionSeen now (by simpa using seen)] at moved
    exact moved rfl

/-- An access never forgets a rejection. -/
theorem rejectionSeen_checkProtectedAccess (seen : l.rejectionSeen = true) :
    (l.checkProtectedAccess now encryption peerBond).1.rejectionSeen = true := by
  rcases l.checkProtectedAccess_fst now encryption peerBond with h | h <;> simp [h, seen]

end

/-- Whatever restarted its idle period, an untrusted link must be dropped once its absolute limit
is over. -/
theorem mustDrop_of_absolute
    {l : LinkSecurity} {now : PairingClock} (untrusted : l.accepted = false)
    (expired : l.connectedAt + kUnbondedLinkAbsoluteLimit ≤ now) : l.mustDrop now = true := by
  have deadline : l.dropDeadline =
      some (min l.idleDeadline (l.connectedAt + kUnbondedLinkAbsoluteLimit)) := by
    simp [dropDeadline, untrusted]
  rw [mustDrop, deadline]
  exact decide_eq_true (le_trans (min_le_right _ _) expired)

end LinkSecurity

end AccessoryController.CompanionProtocol
