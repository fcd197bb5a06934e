import AccessoryController.CompanionProtocol.TransferSteps

/-!
# The state law of a configuration transfer

A write that is refused changes nothing, a pending restart is entered once and never left, only
an accepted Start or Chunk restarts the idle timer, and an observer that looks only when a call
reports a change is never out of date.

## Main definitions

* `reportsChange`, `reportsRestart`: what a call reports to its integration
* `Observed`: a transfer with an observer that copies its state and result on a reported change

## Main results

* `refused_write_changes_nothing`, `restartPending_step`, `idle_timer_restarted_by`: the law of
  one call
* `observer_current`: the observer after every run
* `transfer_state_law`: the whole law, after every run
-/

namespace AccessoryController.CompanionProtocol

open Machine
open ConfigTransfer (restartPending)

/-- A call that reports a changed state or result. -/
def reportsChange : TransferAnswer → Bool
  | .written answer => answer.response.statusChanged
  | .changed changed => changed
  | .busy check => check.statusChanged

/-- A call that reports that a restart became pending. -/
def reportsRestart : TransferCall × TransferAnswer → Bool
  | (.handleWrite _ _ _, .written answer) => answer.response.enteredRestartPending
  | (.enterRestartPending, .changed changed) => changed
  | _ => false

/-- The state and the result that the status value reports. -/
def ConfigTransfer.pair (t : ConfigTransfer) : TransferState × TransferResult :=
  (t.status.state, t.status.result)

/-- A transfer with an observer of its state and result. -/
structure Observed where
  transfer : ConfigTransfer
  seen : TransferState × TransferResult

/-- The observer copies the state and the result when the call reports a change. -/
def Observed.step (environment : ConfigTransferEnvironment) (o : Observed) (call : TransferCall) :
    Observed × TransferAnswer :=
  let (transfer, answer) := o.transfer.step environment call
  ({ transfer, seen := if reportsChange answer then transfer.pair else o.seen }, answer)

/-! ### The law of a write -/

section Write

variable {environment : ConfigTransferEnvironment} {committer : ByteView → CommitOutcome}
  {pdu : ByteView} {context : ConfigWriteContext} {t : ConfigTransfer} {d : Dispatched}

theorem DispatchEffect.refused_same (effect : DispatchEffect committer pdu context t d)
    (failed : d.error ≠ .none) (before : ¬ t.reachesCrcCheck pdu) : d.transfer = t := by
  cases effect with
  | refused _ => rfl
  | mismatched commit => exact absurd commit before
  | settled commit _ => exact absurd commit before
  | aborted _ _ => exact absurd rfl failed
  | _ => exact absurd rfl failed

/-- A write that is refused before the checksum of a Commit does what the idle expiry does, and
nothing else. -/
theorem refused_write_changes_nothing
    (failed : (t.handleWrite environment committer pdu context).2.response.error ≠ .none)
    (before : ¬ (t.expireIfIdle context.now).1.reachesCrcCheck pdu) :
    (t.handleWrite environment committer pdu context).1 = (t.expireIfIdle context.now).1 :=
  dispatchEffect_dispatch.refused_same failed before

section

variable (effect : DispatchEffect committer pdu context t d)
include effect

theorem DispatchEffect.receiving_none (before : t.receiving → t.status.result = .none) :
    d.transfer.receiving → d.transfer.status.result = .none := by
  intro receiving
  cases effect with
  | refused _ => exact before receiving
  | opened _ _ _ _ => rfl
  | appended _ open' _ => exact before open'
  | mismatched _ => simp [ConfigTransfer.receiving] at receiving
  | settled _ _ =>
    rcases settle_cases t (committer t.document) with ⟨_, -, -, hs⟩ | ⟨-, hs⟩ <;>
      simp [ConfigTransfer.receiving, hs] at receiving
  | aborted _ _ =>
    rcases abort_cases t with ⟨-, ha⟩ | ⟨-, ha⟩ <;> rw [ha] at receiving ⊢
    · simp [ConfigTransfer.receiving] at receiving
    · exact before receiving
  | selected _ _ => exact before receiving

/-- A write makes a restart pending only by a Commit that the committer saved, and never ends a
pending restart. -/
theorem DispatchEffect.restartPending_iff :
    d.transfer.restartPending ↔ t.restartPending ∨
      opcodeOf pdu = some .commit ∧ ∃ document saved,
        d.committed = some document ∧ committer document = .saved saved := by
  cases effect with
  | refused _ => simp [ConfigTransfer.refuse]
  | opened _ idle _ _ => simp [restartPending, ConfigTransfer.opened, idle]
  | appended _ receiving _ => simp [restartPending, ConfigTransfer.appended]
  | mismatched commit =>
    have receiving : t.status.state = .receiving := commit.2.2.1
    simp [restartPending, receiving]
  | settled commit _ =>
    have receiving : t.status.state = .receiving := commit.2.2.1
    rcases settle_cases t (committer t.document) with ⟨saved, hsaved, -, hs⟩ | ⟨herror, hs⟩
    · simp only [restartPending, hs]
      simp [commit.1, hsaved]
    · have unsaved : ∀ saved, committer t.document ≠ .saved saved := by
        intro saved hsaved
        rw [hsaved] at herror
        exact herror rfl
      simp [restartPending, hs, receiving, unsaved]
  | aborted _ pending =>
    rcases abort_cases t with ⟨receiving, ha⟩ | ⟨-, ha⟩ <;> rw [ha]
    · have receiving : t.status.state = .receiving := receiving
      simp [restartPending, receiving]
    · simp
  | selected _ _ => simp

theorem DispatchEffect.lastActivity_eq :
    d.transfer.upload.lastActivity =
      if (opcodeOf pdu = some .start ∨ opcodeOf pdu = some .chunk) ∧ d.error = .none
      then context.now else t.upload.lastActivity := by
  cases effect with
  | refused failed => simp [ConfigTransfer.refuse, failed]
  | opened start _ _ _ => simp [start, ConfigTransfer.opened]
  | appended chunk _ _ => simp [chunk, ConfigTransfer.appended]
  | mismatched _ => simp
  | settled commit _ => simp [commit.1]
  | aborted abort _ =>
    rcases abort_cases t with ⟨-, ha⟩ | ⟨-, ha⟩ <;> rw [ha] <;> simp [abort]
  | selected select _ => simp [select]

end

end Write

/-! ### The law of a call -/

section Call

variable {environment : ConfigTransferEnvironment} {t : ConfigTransfer}

theorem receiving_none_expireIfIdle (now : TransferClock)
    (before : t.receiving → t.status.result = .none) :
    (t.expireIfIdle now).1.receiving → (t.expireIfIdle now).1.status.result = .none := by
  rcases expireIfIdle_cases t now with he | ⟨-, -, he⟩
  · rw [he]; exact before
  · rw [he]
    intro receiving
    simp [ConfigTransfer.receiving] at receiving

/-- An open transfer has no result, after every call. -/
theorem receiving_none_step (call : TransferCall)
    (before : t.receiving → t.status.result = .none) :
    (t.step environment call).1.receiving →
      (t.step environment call).1.status.result = .none := by
  cases call with
  | handleWrite pdu context committer =>
    exact @DispatchEffect.receiving_none committer pdu context _ _ dispatchEffect_dispatch
      (receiving_none_expireIfIdle context.now before)
  | expireIfIdle now => exact receiving_none_expireIfIdle now before
  | checkBusy now => exact receiving_none_expireIfIdle now before
  | interrupt =>
    intro receiving
    simp only [ConfigTransfer.step, ConfigTransfer.interrupt] at receiving ⊢
    split
    · simp_all [ConfigTransfer.receiving, Prod.map]
    · simp_all [ConfigTransfer.receiving, Prod.map]
  | enterRestartPending =>
    intro receiving
    simp only [ConfigTransfer.step, ConfigTransfer.enterRestartPending] at receiving ⊢
    split
    · simp_all [ConfigTransfer.receiving, Prod.map]
    · simp_all [ConfigTransfer.receiving, Prod.map]

theorem restartPending_expireIfIdle (now : TransferClock) :
    (t.expireIfIdle now).1.restartPending ↔ t.restartPending := by
  rcases expireIfIdle_cases t now with he | ⟨receiving, -, he⟩
  · rw [he]
  · have receiving : t.status.state = .receiving := receiving
    rw [he]
    simp [restartPending, receiving]

/-- How a call makes a restart pending: by a Commit that the committer saved, or by an accepted
revert from an idle transfer. -/
def EntersRestart (environment : ConfigTransferEnvironment) (t : ConfigTransfer)
    (call : TransferCall) : Prop :=
  (∃ pdu context committer document saved, call = .handleWrite pdu context committer ∧
      opcodeOf pdu = some .commit ∧
      (t.handleWrite environment committer pdu context).2.committed = some document ∧
      committer document = .saved saved) ∨
    call = .enterRestartPending ∧ t.status.state = .idle

/-- A restart is pending after a call exactly if it was before or the call enters it. -/
theorem restartPending_step (call : TransferCall) :
    (t.step environment call).1.restartPending ↔
      t.restartPending ∨ EntersRestart environment t call := by
  cases call with
  | handleWrite pdu context committer =>
    have h := DispatchEffect.restartPending_iff
      (@dispatchEffect_dispatch environment committer pdu context (t.expireIfIdle context.now).1)
    rw [restartPending_expireIfIdle] at h
    simpa [EntersRestart, ConfigTransfer.handleWrite, ConfigTransfer.step] using h
  | expireIfIdle now => exact (restartPending_expireIfIdle now).trans (by simp [EntersRestart])
  | checkBusy now => exact (restartPending_expireIfIdle now).trans (by simp [EntersRestart])
  | interrupt =>
    simp only [ConfigTransfer.step, ConfigTransfer.interrupt]
    split <;>
      simp_all [EntersRestart, restartPending, ConfigTransfer.receiving, Prod.map]
  | enterRestartPending =>
    simp only [ConfigTransfer.step, ConfigTransfer.enterRestartPending]
    split <;> simp_all [EntersRestart, restartPending, Prod.map]

/-- A call reports a pending restart exactly if it made it pending. -/
theorem reportsRestart_step (call : TransferCall) :
    reportsRestart (call, (t.step environment call).2) = true ↔
      ¬ t.restartPending ∧ (t.step environment call).1.restartPending := by
  cases call with
  | handleWrite pdu context committer =>
    exact decide_eq_true_iff
  | expireIfIdle now =>
    have same : (t.step environment (.expireIfIdle now)).1.restartPending ↔ t.restartPending :=
      restartPending_expireIfIdle now
    simp [reportsRestart, same]
  | checkBusy now =>
    have same : (t.step environment (.checkBusy now)).1.restartPending ↔ t.restartPending :=
      restartPending_expireIfIdle now
    simp [reportsRestart, same]
  | interrupt =>
    simp only [ConfigTransfer.step, ConfigTransfer.interrupt]
    split <;> simp_all [reportsRestart, restartPending, Prod.map]
  | enterRestartPending =>
    simp only [ConfigTransfer.step, ConfigTransfer.enterRestartPending]
    split <;> simp_all [reportsRestart, restartPending, Prod.map]

/-- The idle timer is restarted by an accepted Start or Chunk, and by nothing else. -/
theorem idle_timer_restarted_by (call : TransferCall) :
    (t.step environment call).1.upload.lastActivity = t.upload.lastActivity ∨
      ∃ pdu context committer, call = .handleWrite pdu context committer ∧
        (opcodeOf pdu = some .start ∨ opcodeOf pdu = some .chunk) ∧
        (t.handleWrite environment committer pdu context).2.response.error = .none ∧
        (t.step environment call).1.upload.lastActivity = context.now := by
  cases call with
  | handleWrite pdu context committer =>
    have h := DispatchEffect.lastActivity_eq
      (@dispatchEffect_dispatch environment committer pdu context (t.expireIfIdle context.now).1)
    split at h
    · rename_i accepted
      exact Or.inr ⟨pdu, context, committer, rfl, accepted.1, accepted.2, h⟩
    · exact Or.inl (h.trans (lastActivity_expireIfIdle t context.now))
  | expireIfIdle now => exact Or.inl (lastActivity_expireIfIdle t now)
  | checkBusy now => exact Or.inl (lastActivity_expireIfIdle t now)
  | interrupt =>
    refine Or.inl ?_
    simp only [ConfigTransfer.step, ConfigTransfer.interrupt]
    split <;> rfl
  | enterRestartPending =>
    refine Or.inl ?_
    simp only [ConfigTransfer.step, ConfigTransfer.enterRestartPending]
    split <;> rfl

theorem pair_expireIfIdle (now : TransferClock) (quiet : (t.expireIfIdle now).2 = false) :
    (t.expireIfIdle now).1.pair = t.pair := by
  rcases expireIfIdle_cases t now with he | ⟨-, -, he⟩
  · rw [he]
  · rw [he] at quiet
    cases quiet

/-- A call that reports no change leaves the state and the result. -/
theorem pair_step (call : TransferCall)
    (quiet : reportsChange (t.step environment call).2 = false) :
    (t.step environment call).1.pair = t.pair := by
  cases call with
  | handleWrite pdu context committer =>
    simpa [reportsChange, ConfigTransfer.step, ConfigTransfer.handleWrite, ConfigTransfer.pair]
      using quiet
  | expireIfIdle now => exact pair_expireIfIdle now quiet
  | checkBusy now => exact pair_expireIfIdle now quiet
  | interrupt =>
    simp only [ConfigTransfer.step, ConfigTransfer.interrupt] at quiet ⊢
    split <;> simp_all [reportsChange, Prod.map]
  | enterRestartPending =>
    simp only [ConfigTransfer.step, ConfigTransfer.enterRestartPending] at quiet ⊢
    split <;> simp_all [reportsChange, Prod.map]

end Call

/-! ### The law of a run -/

/-- **The observer** of a transfer holds its current state and result, after every run. -/
theorem observer_current (environment : ConfigTransferEnvironment) (calls : List TransferCall) :
    after (Observed.step environment) ⟨{}, ({} : ConfigTransfer).pair⟩ calls =
      ⟨after (ConfigTransfer.step environment) {} calls,
        (after (ConfigTransfer.step environment) {} calls).pair⟩ := by
  induction calls using List.reverseRecOn with
  | nil => rfl
  | append_singleton calls call ih =>
    rw [after_snoc, after_snoc, ih]
    generalize after (ConfigTransfer.step environment) {} calls = t
    cases changed : reportsChange (t.step environment call).2 with
    | true => simp [Observed.step, changed]
    | false => simp [Observed.step, changed, pair_step call changed]

/-- A restart is reported once if it is pending, and not at all otherwise. -/
theorem restart_reported_once (environment : ConfigTransferEnvironment)
    (calls : List TransferCall) :
    (trace (ConfigTransfer.step environment) {} calls).countP reportsRestart =
      if (after (ConfigTransfer.step environment) {} calls).restartPending
      then 1 else 0 := by
  refine invariant (P := fun (t : ConfigTransfer) h =>
    h.countP reportsRestart = if t.restartPending then 1 else 0)
    (by simp [restartPending]) ?_ calls
  intro t h call ih
  have reports := @reportsRestart_step environment t call
  have pending := @restartPending_step environment t call
  rw [List.countP_append, List.countP_singleton, ih]
  by_cases hp : t.restartPending
  · have hp' := pending.mpr (Or.inl hp)
    have quiet : reportsRestart (call, (t.step environment call).2) ≠ true :=
      fun hr => (reports.mp hr).1 hp
    rw [if_pos hp, if_pos hp', if_neg quiet]
  · by_cases hp' : (t.step environment call).1.restartPending
    · rw [if_neg hp, if_pos hp', if_pos (reports.mpr ⟨hp, hp'⟩)]
    · have quiet : reportsRestart (call, (t.step environment call).2) ≠ true :=
        fun hr => hp' (reports.mp hr).2
      rw [if_neg hp, if_neg hp', if_neg quiet]

theorem receiving_none_after (environment : ConfigTransferEnvironment)
    (calls : List TransferCall) :
    (after (ConfigTransfer.step environment) {} calls).receiving →
      (after (ConfigTransfer.step environment) {} calls).status.result = .none :=
  invariant (P := fun (t : ConfigTransfer) _ => t.receiving → t.status.result = .none)
    (fun _ => rfl) (fun _ _ call before => receiving_none_step call before) calls

/-- **The state law.** After every run: an open transfer has no result, a pending restart was
reported exactly once, and an observer that copies the state and the result only on a reported
change holds the current ones. On the next call: a write answered with an error, other than a
Commit that reached its checksum, leaves the transfer as the idle expiry of that call left it,
which does nothing before the timeout; a pending restart is never left, and is entered only by
a Commit that the committer saved or by an accepted revert from an idle transfer; and the idle
timer is restarted only by an accepted Start or Chunk. -/
theorem transfer_state_law (environment : ConfigTransferEnvironment) (calls : List TransferCall) :
    let t := after (ConfigTransfer.step environment) {} calls
    let h := trace (ConfigTransfer.step environment) {} calls
    (t.receiving → t.status.result = .none) ∧
    h.countP reportsRestart = (if t.restartPending then 1 else 0) ∧
    (after (Observed.step environment) ⟨{}, ({} : ConfigTransfer).pair⟩ calls).seen =
      t.pair ∧
    (∀ pdu context committer,
      let after := t.handleWrite environment committer pdu context
      after.2.response.error ≠ .none → ¬ (t.expireIfIdle context.now).1.reachesCrcCheck pdu →
        after.1 = (t.expireIfIdle context.now).1 ∧
        (¬ (t.receiving ∧ 10000 ≤ context.now - t.upload.lastActivity) → after.1 = t)) ∧
    ∀ call,
      (t.restartPending → (t.step environment call).1.restartPending) ∧
      (¬ t.restartPending → (t.step environment call).1.restartPending →
        EntersRestart environment t call) ∧
      ((t.step environment call).1.upload.lastActivity = t.upload.lastActivity ∨
        ∃ pdu context committer, call = .handleWrite pdu context committer ∧
          (opcodeOf pdu = some .start ∨ opcodeOf pdu = some .chunk) ∧
          (t.handleWrite environment committer pdu context).2.response.error = .none ∧
          (t.step environment call).1.upload.lastActivity = context.now) := by
  intro t h
  refine ⟨receiving_none_after environment calls, restart_reported_once environment calls,
    congrArg Observed.seen (observer_current environment calls), ?_, ?_⟩
  · intro pdu context committer after failed before
    have same : after.1 = (t.expireIfIdle context.now).1 :=
      refused_write_changes_nothing failed before
    refine ⟨same, fun open' => same.trans ?_⟩
    rcases expireIfIdle_cases t context.now with he | ⟨receiving, elapsed, -⟩
    · rw [he]
    · exact absurd ⟨receiving, elapsed⟩ open'
  · intro call
    have pending := @restartPending_step environment t call
    refine ⟨fun hp => pending.mpr (Or.inl hp), fun hp hp' => ?_, idle_timer_restarted_by call⟩
    exact (pending.mp hp').resolve_left hp

end AccessoryController.CompanionProtocol
