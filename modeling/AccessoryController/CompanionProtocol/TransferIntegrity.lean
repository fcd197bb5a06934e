import AccessoryController.CompanionProtocol.TransferSteps

/-!
# The integrity of an upload

Whatever the writes, the timeouts and the interruptions, the bytes that the committer sees are
the data of the chunks accepted since the last accepted Start, in order, of the length and the
checksum that this Start announced.

## Main definitions

* `lastStart h`, `chunksSinceStart h`: the Start that opened the upload, and its chunks
* `Intact t h`: the buffer of an open upload holds what its history says

## Main results

* `intact_step`: every call keeps a transfer intact
* `committed_upload_is_what_was_sent`: what the committer is invoked with, after every run
-/

namespace AccessoryController.CompanionProtocol

open LittleEndian
open ConfigTransfer (refuse step)

/-- The last accepted Start. -/
def lastStart (h : List (TransferCall × TransferAnswer)) : Option ByteView :=
  (h.filterMap (acceptedWrite .start)).getLast?

/-- The data of the chunks accepted since the last accepted Start, in order. -/
def chunksSinceStart (h : List (TransferCall × TransferAnswer)) : List ByteView :=
  h.foldl (fun chunks event =>
    if (acceptedWrite .start event).isSome then []
    else chunks ++ ((acceptedWrite .chunk event).map (List.drop kChunkHeaderBytes)).toList) []

variable {committer : ByteView → CommitOutcome} (h : List (TransferCall × TransferAnswer))

theorem lastStart_snoc (event : TransferCall × TransferAnswer) :
    lastStart (h ++ [event]) = (acceptedWrite .start event).or (lastStart h) := by
  cases hs : acceptedWrite .start event <;> simp [lastStart, List.filterMap_append, hs]

theorem chunksSinceStart_snoc (event : TransferCall × TransferAnswer) :
    chunksSinceStart (h ++ [event]) =
      if (acceptedWrite .start event).isSome then []
      else chunksSinceStart h ++
        ((acceptedWrite .chunk event).map (List.drop kChunkHeaderBytes)).toList := by
  simp [chunksSinceStart, List.foldl_append]

/-- The lengths are in bounds, and the buffer of an open upload holds the chunks of its
history. -/
structure Intact (t : ConfigTransfer) (h : List (TransferCall × TransferAnswer)) : Prop where
  received_le : t.status.receivedLength ≤ t.status.transferLength
  transfer_le : t.status.transferLength ≤ kMaxConfigBytes
  upload : t.receiving → ∃ pdu, lastStart h = some pdu ∧
    t.status.transferLength = readU16 pdu 1 ∧ 0 < t.status.transferLength ∧
    t.upload.crc32 = UInt32.ofNat (readU32 pdu 3) ∧
    t.upload.buffer.toList.take t.status.receivedLength = (chunksSinceStart h).flatten

/-! ### One call -/

variable {h : List (TransferCall × TransferAnswer)} {t : ConfigTransfer}
  {event : TransferCall × TransferAnswer} {pdu : ByteView} (environment : ConfigTransferEnvironment)

/-- A transfer that is not receiving is intact as soon as its lengths are in bounds. -/
theorem Intact.of_not_receiving (received_le : t.status.receivedLength ≤ t.status.transferLength)
    (transfer_le : t.status.transferLength ≤ kMaxConfigBytes) (closed : ¬ t.receiving) :
    Intact t h :=
  ⟨received_le, transfer_le, fun open' => absurd open' closed⟩

theorem intact_finish (t : ConfigTransfer) (result : TransferResult)
    (h : List (TransferCall × TransferAnswer)) : Intact (t.finish result) h :=
  .of_not_receiving (Nat.le_refl _) (Nat.zero_le _) (by simp [ConfigTransfer.receiving])

theorem Intact.expireIfIdle (intact : Intact t h) (now : TransferClock) :
    Intact (t.expireIfIdle now).1 h := by
  rcases expireIfIdle_cases t now with he | ⟨-, -, he⟩
  · rw [he]; exact intact
  · rw [he]; exact intact_finish t _ h

/-- An event that is neither an accepted Start nor an accepted Chunk is no part of an upload. -/
theorem Intact.skip (intact : Intact t h) (start : acceptedWrite .start event = none)
    (chunk : acceptedWrite .chunk event = none) : Intact t (h ++ [event]) := by
  have hstart : lastStart (h ++ [event]) = lastStart h := by simp [lastStart_snoc, start]
  have hchunks : chunksSinceStart (h ++ [event]) = chunksSinceStart h := by
    simp [chunksSinceStart_snoc, start, chunk]
  exact ⟨intact.received_le, intact.transfer_le, by rw [hstart, hchunks]; exact intact.upload⟩

/-- An accepted Start opens an empty upload. -/
theorem intact_opened (now : TransferClock) (start : acceptedWrite .start event = some pdu)
    (positive : 0 < readU16 pdu 1) (bounded : readU16 pdu 1 ≤ kMaxConfigBytes) :
    Intact (t.opened pdu now) (h ++ [event]) := by
  have hchunks : chunksSinceStart (h ++ [event]) = [] := by
    simp [chunksSinceStart_snoc, start]
  refine ⟨Nat.zero_le _, bounded, fun _ => ⟨pdu, ?_, rfl, positive, rfl, ?_⟩⟩
  · simp [lastStart_snoc, start]
  · rw [hchunks]; rfl

/-- An accepted Chunk appends its data to the open upload. -/
theorem Intact.appended (intact : Intact t h) (now : TransferClock)
    (start : acceptedWrite .start event = none) (chunk : acceptedWrite .chunk event = some pdu)
    (receiving : t.receiving)
    (fits : t.status.receivedLength + (pdu.drop kChunkHeaderBytes).length ≤
      t.status.transferLength) :
    Intact (t.appended (pdu.drop kChunkHeaderBytes) now) (h ++ [event]) := by
  obtain ⟨pdu₀, hstart, hlength, hpositive, hcrc, hbuffer⟩ := intact.upload receiving
  have hbound : t.status.receivedLength + (pdu.drop kChunkHeaderBytes).length ≤ kMaxConfigBytes :=
    Nat.le_trans fits intact.transfer_le
  -- the cast to sixteen bits loses nothing, as the lengths are at most 4096
  have hreceived : (t.appended (pdu.drop kChunkHeaderBytes) now).status.receivedLength =
      t.status.receivedLength + (pdu.drop kChunkHeaderBytes).length :=
    Nat.mod_eq_of_lt (Nat.lt_of_le_of_lt hbound (by decide))
  have hchunks : chunksSinceStart (h ++ [event]) =
      chunksSinceStart h ++ [pdu.drop kChunkHeaderBytes] := by
    simp [chunksSinceStart_snoc, start, chunk]
  refine ⟨?_, intact.transfer_le, fun _ => ⟨pdu₀, ?_, hlength, hpositive, hcrc, ?_⟩⟩
  · rw [hreceived]
    exact fits
  · rw [lastStart_snoc, start]
    exact hstart
  · rw [hreceived, hchunks, List.flatten_append, ← hbuffer, List.flatten_singleton]
    exact Buffer.take_storeAt t.upload.buffer t.status.receivedLength _ hbound

/-- One write keeps a transfer intact. -/
theorem intact_handleWrite (committer : ByteView → CommitOutcome) (pdu : ByteView)
    (context : ConfigWriteContext) (intact : Intact t h) :
    Intact (t.handleWrite environment committer pdu context).1
      (h ++ [(.handleWrite pdu context committer,
        .written (t.handleWrite environment committer pdu context).2)]) := by
  have expired := intact.expireIfIdle context.now
  have effect : DispatchEffect committer pdu context (t.expireIfIdle context.now).1 _ :=
    @dispatchEffect_dispatch environment committer pdu context _
  unfold ConfigTransfer.handleWrite
  generalize (t.expireIfIdle context.now).1 = t₁ at expired effect ⊢
  generalize t₁.dispatch environment committer pdu context = d at effect ⊢
  cases effect with
  | refused failed =>
    exact expired.skip (by simp [acceptedWrite, refuse, failed])
      (by simp [acceptedWrite, refuse, failed])
  | opened start idle positive bounded =>
    exact intact_opened context.now (by simp [acceptedWrite, start]) positive bounded
  | appended chunk receiving fits =>
    exact expired.appended context.now (by simp [acceptedWrite, chunk])
      (by simp [acceptedWrite, chunk]) receiving fits
  | mismatched commit => exact intact_finish _ _ _
  | settled commit _ =>
    refine .of_not_receiving (by simp) (by simp) ?_
    rcases settle_cases t₁ (committer t₁.document) with ⟨_, -, -, hs⟩ | ⟨-, hs⟩ <;>
      simp [ConfigTransfer.receiving, hs]
  | aborted abort _ =>
    dsimp only [ConfigTransfer.abort]
    split
    · exact intact_finish _ _ _
    · exact expired.skip (by simp [acceptedWrite, abort]) (by simp [acceptedWrite, abort])
  | selected select offset =>
    exact expired.skip (by simp [acceptedWrite, select]) (by simp [acceptedWrite, select])

/-- **One call** keeps a transfer intact. -/
theorem intact_step (t : ConfigTransfer) (h : List (TransferCall × TransferAnswer))
    (call : TransferCall) (intact : Intact t h) :
    Intact (t.step environment call).1 (h ++ [(call, (t.step environment call).2)]) := by
  cases call with
  | handleWrite pdu context committer =>
    exact intact_handleWrite environment committer pdu context intact
  | expireIfIdle now => exact (intact.expireIfIdle now).skip rfl rfl
  | checkBusy now => exact (intact.expireIfIdle now).skip rfl rfl
  | interrupt =>
    have skipped : Intact t (h ++ [(.interrupt, (t.step environment .interrupt).2)]) :=
      intact.skip rfl rfl
    simp only [step, ConfigTransfer.interrupt] at skipped ⊢
    split
    · simpa [*] using skipped
    · exact intact_finish _ _ _
  | enterRestartPending =>
    simp only [step, ConfigTransfer.enterRestartPending]
    split
    · exact intact.skip rfl rfl
    · exact .of_not_receiving intact.received_le intact.transfer_le
        (by simp [ConfigTransfer.receiving, Prod.map])

/-! ### Every run -/

theorem intact_after (calls : List TransferCall) :
    Intact (Machine.after (step environment) {} calls)
      (Machine.trace (step environment) {} calls) :=
  Machine.invariant (P := Intact)
    (.of_not_receiving (Nat.le_refl _) (Nat.zero_le _) (by simp [ConfigTransfer.receiving]))
    (fun t h call intact => intact_step environment t h call intact) calls

/-- A document is handed to the committer only if it is the upload of the history. -/
theorem Intact.committed {environment : ConfigTransferEnvironment} (intact : Intact t h)
    {context : ConfigWriteContext} {document : ByteView}
    (committed : (t.handleWrite environment committer pdu context).2.committed = some document) :
    ∃ start, lastStart h = some start ∧ document = (chunksSinceStart h).flatten ∧
      document.length = readU16 start 1 ∧ 1 ≤ document.length ∧ document.length ≤ 4096 ∧
      crc32 document = UInt32.ofNat (readU32 start 3) := by
  have expired := intact.expireIfIdle context.now
  have effect : DispatchEffect committer pdu context (t.expireIfIdle context.now).1 _ :=
    @dispatchEffect_dispatch environment committer pdu context _
  unfold ConfigTransfer.handleWrite at committed
  generalize (t.expireIfIdle context.now).1 = t₁ at expired effect committed
  generalize t₁.dispatch environment committer pdu context = d at effect committed
  cases effect with
  | settled commit crc =>
    obtain rfl : t₁.document = document := by simpa using committed
    obtain ⟨-, -, receiving, complete⟩ := commit
    obtain ⟨start, hstart, hlength, hpositive, hcrc, hbuffer⟩ := expired.upload receiving
    have hreceived : t₁.status.receivedLength = t₁.status.transferLength :=
      Nat.le_antisymm expired.received_le complete
    have hdocument : t₁.document = (chunksSinceStart h).flatten := by
      rw [ConfigTransfer.document, ← hreceived, hbuffer]
    have hsize : t₁.document.length = t₁.status.transferLength := by
      have := expired.transfer_le
      simp [ConfigTransfer.document, this]
    refine ⟨start, hstart, hdocument, ?_, ?_, ?_, crc.trans hcrc⟩
    · rw [hsize, hlength]
    · rw [hsize]; exact hpositive
    · rw [hsize]; exact expired.transfer_le
  | aborted abort _ => simp [ConfigTransfer.abort] at committed
  | _ => simp [refuse] at committed

/-- An accepted chunk ends inside the buffer. -/
theorem Intact.chunk_fits {environment : ConfigTransferEnvironment} (intact : Intact t h)
    {context : ConfigWriteContext} (chunk : opcodeOf pdu = some .chunk)
    (accepted : (t.handleWrite environment committer pdu context).2.response.error = .none) :
    t.status.receivedLength + (pdu.drop kChunkHeaderBytes).length ≤ kMaxConfigBytes := by
  have effect : DispatchEffect committer pdu context (t.expireIfIdle context.now).1 _ :=
    @dispatchEffect_dispatch environment committer pdu context _
  have same : (t.expireIfIdle context.now).1.receiving →
      (t.expireIfIdle context.now).1.status = t.status := by
    rcases expireIfIdle_cases t context.now with he | ⟨-, -, he⟩
    · rw [he]; exact fun _ => rfl
    · rw [he]; exact fun open' => by simp [ConfigTransfer.receiving] at open'
  unfold ConfigTransfer.handleWrite at accepted
  generalize (t.expireIfIdle context.now).1 = t₁ at same effect accepted
  generalize t₁.dispatch environment committer pdu context = d at effect accepted
  cases effect with
  | refused failed => exact absurd accepted failed
  | appended _ receiving fits =>
    rw [same receiving] at fits
    exact Nat.le_trans fits intact.transfer_le
  | opened start => simp [chunk] at start
  | mismatched commit => simp [chunk, ConfigTransfer.reachesCrcCheck] at commit
  | settled commit => simp [chunk, ConfigTransfer.reachesCrcCheck] at commit
  | aborted abort => simp [chunk] at abort
  | selected select => simp [chunk] at select

/-- **The committer sees what was sent.** After every run, the lengths are in bounds, and the next
chunk that is accepted ends inside the buffer; and when the next write hands a document to the
committer, that document is the data of the chunks accepted since the last accepted Start, in
order, with the length and the checksum of that Start. -/
theorem committed_upload_is_what_was_sent (environment : ConfigTransferEnvironment)
    (calls : List TransferCall) :
    let t := Machine.after (step environment) {} calls
    let h := Machine.trace (step environment) {} calls
    (t.status.receivedLength ≤ t.status.transferLength ∧ t.status.transferLength ≤ 4096) ∧
      ∀ pdu context committer,
        let answer := (t.handleWrite environment committer pdu context).2
        (opcodeOf pdu = some .chunk → answer.response.error = .none →
          t.status.receivedLength + (pdu.drop 3).length ≤ 4096) ∧
        ∀ document, answer.committed = some document →
          ∃ start, lastStart h = some start ∧ document = (chunksSinceStart h).flatten ∧
            document.length = readU16 start 1 ∧ 1 ≤ document.length ∧ document.length ≤ 4096 ∧
            crc32 document = UInt32.ofNat (readU32 start 3) := by
  intro t h
  have intact : Intact t h := intact_after environment calls
  refine ⟨⟨intact.received_le, intact.transfer_le⟩, ?_⟩
  intro pdu context committer answer
  constructor
  · intro chunk accepted
    exact intact.chunk_fits chunk accepted
  · intro document committed
    exact intact.committed committed

end AccessoryController.CompanionProtocol
