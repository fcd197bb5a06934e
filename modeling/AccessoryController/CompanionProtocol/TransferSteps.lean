import AccessoryController.Library.Machine
import AccessoryController.CompanionProtocol.ConfigTransfer

/-!
# What a write can do to a transfer

Every opcode in every state has its own refusals. `DispatchEffect` lists once what a write can do
after them, with the guards under which it does it; every invariant of a transfer is a case
analysis over that list.

## Main definitions

* `DispatchEffect`: the outcomes of a write, after the idle expiry
* `acceptedWrite opcode event`: the write of an event, if it is an accepted write of that opcode
* `ConfigTransfer.reachesCrcCheck t pdu`: the write is a Commit whose upload is complete

## Main results

* `dispatchEffect_dispatch`: a write does one of the listed things
-/

namespace AccessoryController.CompanionProtocol

open LittleEndian

/-- The write of an event, if it is an accepted write of `opcode`. -/
def acceptedWrite (opcode : Opcode) : TransferCall × TransferAnswer → Option ByteView
  | (.handleWrite pdu _ _, .written answer) =>
    if opcodeOf pdu = some opcode ∧ answer.response.error = .none then some pdu else none
  | _ => none

/-- The write is a Commit that the transfer's state lets through to its checksum. -/
def ConfigTransfer.reachesCrcCheck (t : ConfigTransfer) (pdu : ByteView) : Prop :=
  opcodeOf pdu = some .commit ∧ pdu.length = 1 ∧ t.receiving ∧
    t.status.transferLength ≤ t.status.receivedLength

/-- What a write can do, with the guards under which it does it. -/
inductive DispatchEffect (committer : ByteView → CommitOutcome) (pdu : ByteView)
    (context : ConfigWriteContext) (t : ConfigTransfer) : Dispatched → Prop
  | refused {error : AttError} (failed : error ≠ .none) :
      DispatchEffect committer pdu context t (t.refuse error)
  | opened (start : opcodeOf pdu = some .start) (idle : t.status.state = .idle)
      (positive : 0 < readU16 pdu 1) (bounded : readU16 pdu 1 ≤ kMaxConfigBytes) :
      DispatchEffect committer pdu context t { transfer := t.opened pdu context.now }
  | appended (chunk : opcodeOf pdu = some .chunk) (receiving : t.receiving)
      (fits : t.status.receivedLength + (pdu.drop kChunkHeaderBytes).length ≤
        t.status.transferLength) :
      DispatchEffect committer pdu context t
        { transfer := t.appended (pdu.drop kChunkHeaderBytes) context.now }
  | mismatched (commit : t.reachesCrcCheck pdu) :
      DispatchEffect committer pdu context t
        { transfer := t.finish .checksumMismatch, error := .checksumMismatch }
  | settled (commit : t.reachesCrcCheck pdu) (intact : crc32 t.document = t.upload.crc32) :
      DispatchEffect committer pdu context t
        { transfer := (t.settle (committer t.document)).1
          error := (t.settle (committer t.document)).2
          committed := some t.document }
  | aborted (abort : opcodeOf pdu = some .abort) (pending : ¬ t.restartPending) :
      DispatchEffect committer pdu context t t.abort
  | selected (select : opcodeOf pdu = some .selectReadPage) (offset : ℕ) :
      DispatchEffect committer pdu context t { transfer := t, readPageOffset := some offset }

section Dispatch

variable {environment : ConfigTransferEnvironment} {committer : ByteView → CommitOutcome}
  {pdu : ByteView} {context : ConfigWriteContext} {t : ConfigTransfer}

theorem dispatchEffect_start (start : opcodeOf pdu = some .start) (pending : ¬ t.restartPending) :
    DispatchEffect committer pdu context t (t.start environment pdu context) := by
  unfold ConfigTransfer.start
  by_cases hmtu : context.attMtu < kMinimumTransferMtu
  · rw [if_pos hmtu]; exact .refused (by decide)
  rw [if_neg hmtu]
  by_cases hzero : readU16 pdu 1 = 0
  · rw [if_pos hzero]; exact .refused (by decide)
  rw [if_neg hzero]
  by_cases hlarge : kMaxConfigBytes < readU16 pdu 1
  · rw [if_pos hlarge]; exact .refused (by decide)
  rw [if_neg hlarge]
  by_cases hreceiving : t.receiving
  · rw [if_pos hreceiving]; exact .refused (by decide)
  rw [if_neg hreceiving]
  split
  · exact .refused (by decide)
  · have idle : t.status.state = .idle := by
      cases hs : t.status.state
      · rfl
      · exact absurd hs hreceiving
      · exact absurd hs pending
    exact .opened start idle (Nat.pos_of_ne_zero hzero) (Nat.not_lt.mp hlarge)

theorem dispatchEffect_chunk (chunk : opcodeOf pdu = some .chunk) :
    DispatchEffect committer pdu context t (t.chunk pdu context) := by
  unfold ConfigTransfer.chunk
  by_cases hreceiving : t.receiving
  · rw [if_neg (not_not.mpr hreceiving)]
    split
    · exact .refused (by decide)
    · split
      · exact .refused (by decide)
      · rename_i hfits
        exact .appended chunk hreceiving (Nat.not_lt.mp hfits)
  · rw [if_pos hreceiving]
    exact .refused (by decide)

theorem dispatchEffect_commit (commit : opcodeOf pdu = some .commit) (length : pdu.length = 1) :
    DispatchEffect committer pdu context t (t.commit committer) := by
  unfold ConfigTransfer.commit
  by_cases hreceiving : t.receiving
  · rw [if_neg (not_not.mpr hreceiving)]
    split
    · exact .refused (by decide)
    · rename_i hcomplete
      have reaches : t.reachesCrcCheck pdu :=
        ⟨commit, length, hreceiving, Nat.not_lt.mp hcomplete⟩
      split
      · exact .mismatched reaches
      · rename_i hcrc
        exact .settled reaches (not_not.mp hcrc)
  · rw [if_pos hreceiving]
    exact .refused (by decide)

theorem dispatchEffect_selectReadPage (select : opcodeOf pdu = some .selectReadPage) :
    DispatchEffect committer pdu context t (t.selectReadPage environment pdu) := by
  dsimp only [ConfigTransfer.selectReadPage]
  split
  · exact .refused (by decide)
  · exact .selected select _

/-- **A write** does one of the listed things. -/
theorem dispatchEffect_dispatch :
    DispatchEffect committer pdu context t (t.dispatch environment committer pdu context) := by
  unfold ConfigTransfer.dispatch
  split
  · exact .refused (by decide)
  split
  · exact .refused (by decide)
  rename_i opcode hopcode
  by_cases hlength : validLength opcode pdu.length context.attMtu
  · rw [if_neg (not_not.mpr hlength)]
    by_cases hpending : t.restartPending
    · rw [if_pos hpending]
      exact .refused (by decide)
    rw [if_neg hpending]
    cases opcode with
    | start => exact dispatchEffect_start hopcode hpending
    | chunk => exact dispatchEffect_chunk hopcode
    | commit => exact dispatchEffect_commit hopcode hlength
    | abort => exact .aborted hopcode hpending
    | selectReadPage => exact dispatchEffect_selectReadPage hopcode
  · rw [if_pos hlength]
    exact .refused (by decide)

end Dispatch

/-! ### The fields that an operation leaves -/

variable (t : ConfigTransfer)

@[simp] theorem status_finish (result : TransferResult) :
    (t.finish result).status = { result := result } := rfl

@[simp] theorem lastActivity_finish (result : TransferResult) :
    (t.finish result).upload.lastActivity = t.upload.lastActivity := rfl

/-- The idle expiry either does nothing or discards an open transfer. -/
theorem expireIfIdle_cases (now : TransferClock) :
    t.expireIfIdle now = (t, false) ∨
      t.receiving ∧ kTransferIdleTimeout ≤ now - t.upload.lastActivity ∧
        t.expireIfIdle now = (t.finish .timedOut, true) := by
  by_cases hidle : ¬ t.receiving ∨ now - t.upload.lastActivity < kTransferIdleTimeout
  · exact Or.inl (if_pos hidle)
  · obtain ⟨hreceiving, helapsed⟩ := not_or.mp hidle
    exact Or.inr ⟨not_not.mp hreceiving, Int.not_lt.mp helapsed, if_neg hidle⟩

@[simp] theorem lastActivity_expireIfIdle (now : TransferClock) :
    (t.expireIfIdle now).1.upload.lastActivity = t.upload.lastActivity := by
  rcases expireIfIdle_cases t now with h | ⟨-, -, h⟩
  · rw [h]
  · rw [h]; rfl

theorem abort_cases :
    t.receiving ∧ t.abort = { transfer := t.finish .aborted } ∨
      ¬ t.receiving ∧ t.abort = { transfer := t } := by
  unfold ConfigTransfer.abort
  by_cases receiving : t.receiving
  · exact Or.inl ⟨receiving, by rw [if_pos receiving]⟩
  · exact Or.inr ⟨receiving, by rw [if_neg receiving]⟩

variable (outcome : CommitOutcome)

/-- A commit outcome either saves the document or leaves an idle transfer and an error. -/
theorem settle_cases :
    (∃ document, outcome = .saved document ∧ (t.settle outcome).2 = .none ∧
        (t.settle outcome).1.status =
          { state := .restartPending, result := .saved, saved := document }) ∨
      (t.settle outcome).2 ≠ .none ∧ (t.settle outcome).1.status.state = .idle := by
  cases outcome with
  | saved document => exact Or.inl ⟨document, rfl, rfl, rfl⟩
  | configRejected rejection => exact Or.inr ⟨by simp [ConfigTransfer.settle], rfl⟩
  | applyRejected rejection => exact Or.inr ⟨by simp [ConfigTransfer.settle], rfl⟩
  | storageFailed => exact Or.inr ⟨by simp [ConfigTransfer.settle], rfl⟩

@[simp] theorem lastActivity_settle :
    (t.settle outcome).1.upload.lastActivity = t.upload.lastActivity := by
  cases outcome <;> rfl

@[simp] theorem lengths_settle :
    (t.settle outcome).1.status.receivedLength = 0 ∧
      (t.settle outcome).1.status.transferLength = 0 := by
  cases outcome <;> exact ⟨rfl, rfl⟩

end AccessoryController.CompanionProtocol
