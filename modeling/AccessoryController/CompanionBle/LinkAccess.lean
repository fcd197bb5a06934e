import AccessoryController.CompanionBle.Security
import AccessoryController.Library.History
import AccessoryController.Library.Machine

/-!
# Who may access a link, and for how long

The events of the host task may come in any order, with any bond data. An access is allowed only
on a connection whose latest encryption was accepted, with nothing since that revokes it; a link
that was never accepted runs out of time, and its accesses cannot buy it more than once.

## Main definitions

* `Connected c h`: the history left connection `c` open
* `AcceptedLink c h`: the history left the bond of connection `c` accepted
* `Grants c entry`: a handler allowed an access of connection `c`
* `extendsIdle`: an access moves the idle deadline

## Main results

* `step_cases`: what an event may do to the link
* `agrees_step`: an accepted link was accepted by the history
* `link_security`: the accesses, the absolute limit and the idle period of every run
-/

namespace AccessoryController.CompanionBle

open CompanionProtocol Machine History LinkState

/-- A central connected. -/
def LinkEvent.Connects (e : LinkEvent) : Prop := ∃ c d now, e = .connect 0 c d now

/-- The connection is closed or replaced. -/
def LinkEvent.Ends (c : ConnHandle) (e : LinkEvent) : Prop := e.Connects ∨ e = .disconnect c

/-- An encryption of the connection, bonded and stored under a 16-byte key. -/
def LinkEvent.Accepts (c : ConnHandle) (e : LinkEvent) : Prop :=
  ∃ d : ConnDescription, e = .encryptionChange c 0 (some d) ∧
    d.bonded = true ∧ d.keySize = 16 ∧ d.storedBond = .stored

/-- The bonds are cleared, or the connection's encryption is decided anew. -/
def LinkEvent.Revokes (c : ConnHandle) (e : LinkEvent) : Prop :=
  e = .clearBonds ∨ ∃ status d, e = .encryptionChange c status d

/-- The connection was opened and has not ended since. -/
def Connected (c : ConnHandle) (h : List LinkEvent) : Prop :=
  ∃ earlier d now later, h = earlier ++ .connect 0 c d now :: later ∧ ∀ e ∈ later, ¬ e.Ends c

/-- An encryption of the open connection was accepted, and nothing has revoked it since. -/
def AcceptedLink (c : ConnHandle) (h : List LinkEvent) : Prop :=
  ∃ earlier e later, h = earlier ++ e :: later ∧ Connected c earlier ∧ e.Accepts c ∧
    ∀ e' ∈ later, ¬ e'.Ends c ∧ ¬ e'.Revokes c

/-- The handler allowed a peer's access: to a protected attribute or to its notifications. -/
def Grants (c : ℕ) (entry : LinkEvent × LinkAnswer) : Prop :=
  (∃ d now, entry = (.protectedAccess (some c) d now, .attError 0)) ∨
    entry = (.authorize (some c), .authorized true)

/-- The event is an access that moves the idle deadline of the link. -/
def extendsIdle : LinkState × LinkEvent → Bool
  | (s, .protectedAccess c d now) =>
    (step s (.protectedAccess c d now)).1.link.idleDeadline ≠ s.link.idleDeadline
  | _ => false

variable {c : ConnHandle} {h : List LinkEvent} {e : LinkEvent} {now : PairingClock} {s : LinkState}
  {later : List LinkEvent}

theorem Connected.snoc (connected : Connected c h) (stays : ¬ e.Ends c) :
    Connected c (h ++ [e]) := by
  obtain ⟨earlier, d, now, later, rfl, kept⟩ := connected
  refine ⟨earlier, d, now, later ++ [e], by simp, ?_⟩
  intro e' he'
  rcases List.mem_append.mp he' with he' | he'
  · exact kept e' he'
  · rwa [List.mem_singleton.mp he']

theorem AcceptedLink.snoc (accepted : AcceptedLink c h) (stays : ¬ e.Ends c)
    (keeps : ¬ e.Revokes c) :
    AcceptedLink c (h ++ [e]) := by
  obtain ⟨earlier, x, later, rfl, connected, accepts, kept⟩ := accepted
  refine ⟨earlier, x, later ++ [e], by simp, connected, accepts, ?_⟩
  intro e' he'
  rcases List.mem_append.mp he' with he' | he'
  · exact kept e' he'
  · rw [List.mem_singleton.mp he']
    exact ⟨stays, keeps⟩

/-! ### What a handler does to the link -/

namespace LinkState

variable (s : LinkState)

@[simp] theorem link_scheduleDisconnect (c : ConnHandle) :
    (s.scheduleDisconnect c).link = s.link := by
  unfold scheduleDisconnect; split <;> rfl

@[simp] theorem connection_scheduleDisconnect (c : ConnHandle) :
    (s.scheduleDisconnect c).connection = s.connection := by
  unfold scheduleDisconnect; split <;> rfl

@[simp] theorem link_rearmDropTimer : s.rearmDropTimer.link = s.link := rfl

@[simp] theorem connection_rearmDropTimer : s.rearmDropTimer.connection = s.connection := rfl

/-- An encryption change on the connection decides the link, whatever else the handler does. -/
theorem handleEncryptionChange_self (status : ℤ) (d : Option ConnDescription) :
    (s.handleEncryptionChange s.connection status d).1.connection = s.connection ∧
      (s.handleEncryptionChange s.connection status d).1.link =
        (s.link.encrypted (encryptedLink status d)).1 := by
  unfold handleEncryptionChange
  rw [if_neg (not_not_intro rfl)]
  -- The four verdicts differ in the timers only.
  cases hv : (s.link.encrypted (encryptedLink status d)).2 <;> simp [hv]

/-- An access leaves the connection alone, and the link too or with one more rejection. -/
theorem checkProtectedAccess_fst (c : ConnHandle) (d : Option ConnDescription)
    (now : PairingClock) :
    (s.checkProtectedAccess c d now).1.connection = s.connection ∧
      ((s.checkProtectedAccess c d now).1.link = s.link ∨
        ∃ encryption bond, (s.checkProtectedAccess c d now).1.link =
          (s.link.checkProtectedAccess now encryption bond).1) := by
  unfold checkProtectedAccess
  by_cases hc : c = none
  · simp [hc]
  · rw [if_neg hc]
    cases d with
    | none => simp
    | some d =>
      by_cases current : c = s.connection
      · simp only [current, ne_eq, not_true_eq_false, if_false]
        refine ⟨?_, Or.inr ⟨d.encryption, d.storedBond, ?_⟩⟩ <;> split <;> simp
      · simp [current]

/-- Only the accepted link of the current connection has no error. -/
theorem accepted_of_checkProtectedAccess {c : ℕ} {d : Option ConnDescription}
    (allowed : (s.checkProtectedAccess (some c) d now).2 = 0) :
    s.connection = some c ∧ s.link.accepted = true := by
  unfold checkProtectedAccess at allowed
  rw [if_neg (Option.some_ne_none c)] at allowed
  cases d with
  | none => simp at allowed
  | some d =>
    by_cases current : some c = s.connection
    · simp only [current, ne_eq, not_true_eq_false, if_false, attErrorCode_eq_zero] at allowed
      exact ⟨current.symm,
        (s.link.checkProtectedAccess_eq_allow now d.encryption d.storedBond).mp allowed⟩
    · simp [current] at allowed

theorem linkHasAcceptedBond_iff :
    s.linkHasAcceptedBond c = true ↔ c ≠ none ∧ c = s.connection ∧ s.link.accepted = true := by
  simp [linkHasAcceptedBond, and_assoc]

end LinkState

/-- The effect of an event that neither opens nor ends the connection, nor decides its
encryption: the link keeps its connection time and its rejection, and no bond is accepted. -/
structure Quiet (s s' : LinkState) (e : LinkEvent) : Prop where
  stays : ¬ e.Ends s.connection
  connection : s'.connection = s.connection
  connectedAt : s'.link.connectedAt = s.link.connectedAt
  rejectionSeen : s.link.rejectionSeen = true → s'.link.rejectionSeen = true
  accepted : s'.link.accepted = true → s.link.accepted = true ∧ ¬ e.Revokes s.connection

/-- An event that leaves the link and its connection alone is quiet. -/
theorem Quiet.of_eq {s' : LinkState} (stays : ¬ e.Ends s.connection)
    (keeps : ¬ e.Revokes s.connection) (connection : s'.connection = s.connection)
    (link : s'.link = s.link) : Quiet s s' e where
  stays := stays
  connection := connection
  connectedAt := by rw [link]
  rejectionSeen := by rw [link]; exact id
  accepted := by rw [link]; exact fun accepted => ⟨accepted, keeps⟩

/-- A pairing PDU restarts the idle period and is quiet otherwise. -/
theorem Quiet.of_pairingPdu (stays : ¬ e.Ends s.connection) (keeps : ¬ e.Revokes s.connection) :
    Quiet s (s.acceptedPairingPdu now) e where
  stays := stays
  connection := rfl
  connectedAt := rfl
  rejectionSeen := id
  accepted accepted := ⟨accepted, keeps⟩

attribute [local simp] LinkEvent.Connects LinkEvent.Ends LinkEvent.Revokes

/-- **What an event may do to the link**: open a connection, end the current one, decide its
encryption, or none of these. -/
theorem step_cases (s : LinkState) (e : LinkEvent) :
    (∃ c d now, e = .connect 0 c d now ∧ (step s e).1.connection = c ∧
      (step s e).1.link = LinkSecurity.connected now) ∨
    (e = .disconnect s.connection ∧ (step s e).1.connection = none) ∨
    (∃ status d, e = .encryptionChange s.connection status d ∧
      (step s e).1.connection = s.connection ∧
      (step s e).1.link = (s.link.encrypted (encryptedLink status d)).1) ∨
    Quiet s (step s e).1 e := by
  cases e with
  | connect status c d now =>
    by_cases failed : status = 0
    · subst failed
      exact Or.inl ⟨c, d, now, rfl, rfl, rfl⟩
    · have same : step s (.connect status c d now) = (s, .done) := if_pos failed
      refine Or.inr (Or.inr (Or.inr (Quiet.of_eq ?_ ?_ ?_ ?_)))
      · simp [failed]
      · simp
      · rw [same]
      · rw [same]
  | disconnect c =>
    refine Or.inr ?_
    by_cases current : c = s.connection
    · subst current
      refine Or.inl ⟨rfl, ?_⟩
      simp [step, handleDisconnect]
    · have same : step s (.disconnect c) = (s, .done) := by
        simp [step, handleDisconnect, current]
      refine Or.inr (Or.inr (Quiet.of_eq ?_ ?_ ?_ ?_))
      · simp [current]
      · simp
      · rw [same]
      · rw [same]
  | encryptionChange c status d =>
    refine Or.inr (Or.inr ?_)
    by_cases current : c = s.connection
    · subst current
      exact Or.inl ⟨status, d, rfl, s.handleEncryptionChange_self status d⟩
    · have same : step s (.encryptionChange c status d) = (s, .done) := if_pos current
      refine Or.inr (Quiet.of_eq ?_ ?_ ?_ ?_)
      · simp
      · simp [current]
      · rw [same]
      · rw [same]
  | pairingComplete c status now =>
    refine Or.inr (Or.inr (Or.inr ?_))
    have stays : ¬ (LinkEvent.pairingComplete c status now).Ends s.connection := by
      simp
    have keeps : ¬ (LinkEvent.pairingComplete c status now).Revokes s.connection := by
      simp
    simp only [step, handlePairingComplete]
    split
    · exact Quiet.of_pairingPdu stays keeps
    · exact Quiet.of_eq stays keeps rfl rfl
  | repeatPairing c d action now =>
    refine Or.inr (Or.inr (Or.inr ?_))
    have stays : ¬ (LinkEvent.repeatPairing c d action now).Ends s.connection := by
      simp
    have keeps : ¬ (LinkEvent.repeatPairing c d action now).Revokes s.connection := by
      simp
    simp only [step, handleRepeatPairing]
    split
    · exact Quiet.of_pairingPdu stays keeps
    · exact Quiet.of_eq stays keeps (by simp) (by simp)
  | authorize c =>
    refine Or.inr (Or.inr (Or.inr (Quiet.of_eq ?_ ?_ ?_ ?_)))
    · simp
    · simp
    · simp only [step, handleAuthorize]; split <;> simp
    · simp only [step, handleAuthorize]; split <;> simp
  | bondRecordStored =>
    refine Or.inr (Or.inr (Or.inr ⟨?_, rfl, rfl, id, fun accepted => ⟨accepted, ?_⟩⟩))
    · simp
    · simp
  | protectedAccess c d now =>
    refine Or.inr (Or.inr (Or.inr ?_))
    have keeps : ¬ (LinkEvent.protectedAccess c d now).Revokes s.connection := by
      simp
    obtain ⟨connection, same | ⟨encryption, bond, link⟩⟩ := s.checkProtectedAccess_fst c d now
    · exact Quiet.of_eq (by simp) keeps connection same
    · refine ⟨by simp, connection, ?_, ?_, ?_⟩ <;>
        simp only [step, link]
      · exact s.link.connectedAt_checkProtectedAccess now encryption bond
      · exact s.link.rejectionSeen_checkProtectedAccess now encryption bond
      · rw [LinkSecurity.accepted_checkProtectedAccess]
        exact fun accepted => ⟨accepted, keeps⟩
  | clearBonds =>
    refine Or.inr (Or.inr (Or.inr ⟨?_, rfl, rfl, id, ?_⟩))
    · simp
    · simp [step, clearBonds, LinkSecurity.revokeBond]
  | dropTimer now =>
    refine Or.inr (Or.inr (Or.inr (Quiet.of_eq ?_ ?_ ?_ ?_)))
    · simp
    · simp
    all_goals simp only [step, onDropTimer]; repeat' split
    all_goals simp
  | disconnectTimer =>
    refine Or.inr (Or.inr (Or.inr (Quiet.of_eq ?_ ?_ rfl rfl)))
    · simp
    · simp
  | disconnectAfterResponse c =>
    refine Or.inr (Or.inr (Or.inr (Quiet.of_eq ?_ ?_ ?_ ?_)))
    · simp
    · simp
    · simp [step]
    · simp [step]

/-- An accepted encryption is one of the bonded, stored kind. -/
theorem accepts_of_encrypted {l : LinkSecurity} {status : ℤ} {d : Option ConnDescription}
    (accepted : (l.encrypted (encryptedLink status d)).1.accepted = true) :
    (LinkEvent.encryptionChange c status d).Accepts c := by
  have bond : isAcceptedBond (encryptedLink status d) = true := accepted
  cases d with
  | none => exact absurd bond (by simp [encryptedLink, isAcceptedBond_default])
  | some d =>
    by_cases succeeded : status = 0
    · subst succeeded
      exact ⟨d, rfl, isAcceptedBond_iff.mp bond⟩
    · exact absurd bond (by simp [encryptedLink, succeeded, isAcceptedBond_default])

/-! ### What the history says of the link -/

/-- The state knows no connection and no accepted bond that the history does not. -/
structure Agrees (s : LinkState) (h : List LinkEvent) : Prop where
  connected : ∀ c : ℕ, s.connection = some c → Connected (some c) h
  accepted : ∀ c : ℕ, s.connection = some c → s.link.accepted = true → AcceptedLink (some c) h

theorem agrees_nil : Agrees {} [] where
  connected c hc := absurd hc (by simp)
  accepted c hc := absurd hc (by simp)

/-- One event keeps the state and the history in agreement. -/
theorem agrees_step (agrees : Agrees s h) (e : LinkEvent) : Agrees (step s e).1 (h ++ [e]) := by
  rcases step_cases s e with ⟨c, d, now, rfl, connection, link⟩ | ⟨rfl, connection⟩ |
    ⟨status, d, rfl, connection, link⟩ | quiet
  · -- A new connection forgets the previous one's acceptance.
    constructor
    · intro c' hc
      rw [← connection, hc]
      exact ⟨h, d, now, [], rfl, by simp⟩
    · intro c' _ accepted
      rw [link] at accepted
      exact absurd accepted (by simp)
  · constructor
    · intro c hc
      exact absurd (connection.symm.trans hc) (by simp)
    · intro c hc
      exact absurd (connection.symm.trans hc) (by simp)
  · constructor
    · intro c hc
      exact (agrees.connected c (connection.symm.trans hc)).snoc (by simp)
    · intro c hc accepted
      have current : s.connection = some c := connection.symm.trans hc
      rw [link] at accepted
      exact ⟨h, _, [], rfl, agrees.connected c current,
        current ▸ accepts_of_encrypted accepted, by simp⟩
  · constructor
    · intro c hc
      have current : s.connection = some c := quiet.connection.symm.trans hc
      exact (agrees.connected c current).snoc (current ▸ quiet.stays)
    · intro c hc accepted
      have current : s.connection = some c := quiet.connection.symm.trans hc
      obtain ⟨before, keeps⟩ := quiet.accepted accepted
      exact (agrees.accepted c current before).snoc (current ▸ quiet.stays) (current ▸ keeps)

/-- A granted access meets the accepted link of the current connection. -/
theorem accepted_of_grants {c : ℕ} (grants : Grants c (e, (step s e).2)) :
    s.connection = some c ∧ s.link.accepted = true := by
  rcases grants with ⟨d, now, eq⟩ | eq
  · obtain ⟨rfl, answer⟩ := Prod.mk.inj eq
    exact s.accepted_of_checkProtectedAccess (LinkAnswer.attError.inj answer)
  · obtain ⟨rfl, answer⟩ := Prod.mk.inj eq
    simp only [step, handleAuthorize] at answer
    split at answer
    · rename_i bond
      obtain ⟨-, current, accepted⟩ := s.linkHasAcceptedBond_iff.mp bond
      exact ⟨current.symm, accepted⟩
    · simp at answer

/-- Every granted access of a run is preceded by an accepted link. -/
theorem grants_lawful (run : List LinkEvent) :
    Lawful (fun before entry => ∀ c, Grants c entry → AcceptedLink (some c) (before.map Prod.fst))
      (trace step {} run) := by
  refine (invariant (P := fun s h => Agrees s (h.map Prod.fst) ∧ Lawful _ h)
    ⟨agrees_nil, lawful_nil _⟩ ?_ run).2
  rintro s h e ⟨agrees, lawful⟩
  refine ⟨?_, lawful_snoc.mpr ⟨lawful, ?_⟩⟩
  · rw [List.map_append]
    exact agrees_step agrees e
  · intro c grants
    obtain ⟨current, accepted⟩ := accepted_of_grants grants
    exact agrees.accepted c current accepted

/-! ### How long an untrusted link may stay -/

/-- A connection that stays open without an accepted encryption is untrusted, and remembers when
it was made. -/
theorem untrusted_after (open' : s.connection = c) (untrusted : s.link.accepted = false)
    (stays : ∀ e ∈ later, ¬ e.Ends c) (never : ∀ e ∈ later, ¬ e.Accepts c) :
    (after step s later).connection = c ∧ (after step s later).link.accepted = false ∧
      (after step s later).link.connectedAt = s.link.connectedAt := by
  induction later generalizing s with
  | nil => exact ⟨open', untrusted, rfl⟩
  | cons e later ih =>
    obtain ⟨staysNow, staysLater⟩ := List.forall_mem_cons.mp stays
    obtain ⟨neverNow, neverLater⟩ := List.forall_mem_cons.mp never
    rcases step_cases s e with ⟨c', d, now, rfl, -, -⟩ | ⟨rfl, -⟩ |
      ⟨status, d, rfl, connection, link⟩ | quiet
    · exact absurd (Or.inl ⟨c', d, now, rfl⟩) staysNow
    · exact absurd (Or.inr (by rw [open'])) staysNow
    · have rejected : (step s (.encryptionChange s.connection status d)).1.link.accepted = false := by
        by_contra accepted
        rw [link] at accepted
        exact neverNow (open' ▸ accepts_of_encrypted (by simpa using accepted))
      obtain ⟨h₁, h₂, h₃⟩ := ih (connection.trans open') rejected staysLater neverLater
      exact ⟨h₁, h₂, h₃.trans (by rw [link]; rfl)⟩
    · have rejected : (step s e).1.link.accepted = false := by
        by_contra accepted
        exact absurd (quiet.accepted (by simpa using accepted)).1 (by simp [untrusted])
      obtain ⟨h₁, h₂, h₃⟩ := ih (quiet.connection.trans open') rejected staysLater neverLater
      exact ⟨h₁, h₂, h₃.trans quiet.connectedAt⟩

/-- A drop timer that finds its link out of time schedules the disconnect. -/
theorem disconnectConnection_of_mustDrop {c : ℕ} (open' : s.connection = some c)
    (expired : s.link.mustDrop now = true) :
    (step s (.dropTimer now)).1.disconnectConnection = some c := by
  simp [step, onDropTimer, scheduleDisconnect, open', expired]

/-! ### What the accesses of a link can extend -/

/-- Without a new connection, a rejection is remembered. -/
theorem rejectionSeen_step (stays : ¬ e.Connects) (seen : s.link.rejectionSeen = true) :
    (step s e).1.link.rejectionSeen = true := by
  rcases step_cases s e with ⟨c, d, now, rfl, -, -⟩ | ⟨rfl, -⟩ | ⟨status, d, rfl, -, link⟩ | quiet
  · exact absurd ⟨c, d, now, rfl⟩ stays
  · simpa [step, handleDisconnect] using seen
  · rw [link]; exact seen
  · exact quiet.rejectionSeen seen

/-- Only the first rejection moves the idle deadline. -/
theorem rejectionSeen_of_extendsIdle (moves : extendsIdle (s, e) = true) :
    s.link.rejectionSeen = false ∧ (step s e).1.link.rejectionSeen = true := by
  cases e with
  | protectedAccess c d now =>
    have moved : (step s (.protectedAccess c d now)).1.link.idleDeadline ≠ s.link.idleDeadline :=
      of_decide_eq_true moves
    obtain ⟨-, same | ⟨encryption, bond, link⟩⟩ := s.checkProtectedAccess_fst c d now
    · exact absurd (congrArg LinkSecurity.idleDeadline same) moved
    · simp only [step, link] at moved ⊢
      exact s.link.rejectionSeen_of_idleDeadline_ne now encryption bond moved
  | _ => simp [extendsIdle] at moves

theorem countP_extendsIdle_of_rejectionSeen (stays : ∀ e ∈ later, ¬ e.Connects)
    (seen : s.link.rejectionSeen = true) : (moves step s later).countP extendsIdle = 0 := by
  induction later generalizing s with
  | nil => rfl
  | cons e later ih =>
    obtain ⟨staysNow, staysLater⟩ := List.forall_mem_cons.mp stays
    have still : ¬ extendsIdle (s, e) = true := by
      intro extended
      exact absurd seen (by simp [(rejectionSeen_of_extendsIdle extended).1])
    rw [moves, List.countP_cons_of_neg still]
    exact ih staysLater (rejectionSeen_step staysNow seen)

/-- While no new connection is made, at most one access moves the idle deadline. -/
theorem countP_extendsIdle_le_one (s : LinkState) (stays : ∀ e ∈ later, ¬ e.Connects) :
    (moves step s later).countP extendsIdle ≤ 1 := by
  induction later generalizing s with
  | nil => simp [moves]
  | cons e later ih =>
    obtain ⟨-, staysLater⟩ := List.forall_mem_cons.mp stays
    by_cases extended : extendsIdle (s, e) = true
    · rw [moves, List.countP_cons_of_pos extended,
        countP_extendsIdle_of_rejectionSeen staysLater (rejectionSeen_of_extendsIdle extended).2]
    · rw [moves, List.countP_cons_of_neg extended]
      exact ih _ staysLater

/-- **Link security**: whatever the order of the events, the bond data and the times,

* an access is granted only on an open connection with an accepted link;
* a connection that was never accepted must be dropped at every time from its absolute limit on,
  and the drop timer then does so;
* while no new connection is made, at most one of the accesses moves the idle deadline. -/
theorem link_security (run : List LinkEvent) :
    Lawful (fun before entry => ∀ c, Grants c entry → AcceptedLink (some c) (before.map Prod.fst))
      (trace step {} run) ∧
    (∀ before c d now later, run = before ++ .connect 0 (some c) d now :: later →
      (∀ e ∈ later, ¬ e.Ends (some c)) → (∀ e ∈ later, ¬ e.Accepts (some c)) →
      ∀ t, now + 90000 ≤ t →
        (after step {} run).link.mustDrop t = true ∧
        (step (after step {} run) (.dropTimer t)).1.disconnectConnection = some c) ∧
    (∀ before later, run = before ++ later → (∀ e ∈ later, ¬ e.Connects) →
      (moves step (after step {} before) later).countP extendsIdle ≤ 1) := by
  refine ⟨grants_lawful run, ?_, ?_⟩
  · rintro before c d now later rfl stays never t expired
    rw [after_append]
    obtain ⟨open', untrusted, connectedAt⟩ := untrusted_after
      (s := (step (after step {} before) (.connect 0 (some c) d now)).1) rfl rfl stays never
    have mustDrop : (after step (step (after step {} before) (.connect 0 (some c) d now)).1
        later).link.mustDrop t = true := by
      apply LinkSecurity.mustDrop_of_absolute untrusted
      rw [connectedAt]
      exact expired
    exact ⟨mustDrop, disconnectConnection_of_mustDrop open' mustDrop⟩
  · rintro before later rfl stays
    exact countP_extendsIdle_le_one _ stays

/-- A re-encrypted central is let in, and a central that only probes must be dropped. -/
theorem link_security_of_probes :
    AcceptedLink (some 1) [.connect 0 (some 1) none 0,
      .encryptionChange (some 1) 0 (some ⟨true, true, 16, .stored⟩)] ∧
    (after step {} [.connect 0 (some 1) none 0,
      .protectedAccess (some 1) (some ⟨false, false, 0, .none⟩) 20000,
      .protectedAccess (some 1) (some ⟨false, false, 0, .none⟩) 40000]).link.mustDrop 90000
        = true := by
  constructor
  · refine (link_security [.connect 0 (some 1) none 0,
      .encryptionChange (some 1) 0 (some ⟨true, true, 16, .stored⟩),
      .protectedAccess (some 1) (some ⟨true, true, 16, .stored⟩) 500]).1
      [(.connect 0 (some 1) none 0, .done),
        (.encryptionChange (some 1) 0 (some ⟨true, true, 16, .stored⟩), .verdict .bondRestored)]
      (.protectedAccess (some 1) (some ⟨true, true, 16, .stored⟩) 500, .attError 0) [] rfl 1 ?_
    exact Or.inl ⟨_, _, rfl⟩
  · refine ((link_security _).2.1 [] 1 none 0 _ rfl ?_ ?_ 90000 (by decide)).1
    · simp [LinkEvent.Ends, LinkEvent.Connects]
    · simp [LinkEvent.Accepts]

end AccessoryController.CompanionBle
