import AccessoryController.CompanionProtocol.LiveRecords
import AccessoryController.Library.Pointwise
import AccessoryController.Library.RoundRobin

/-!
# One sampling pass

An offer is one round of a round-robin service of the handles: the due records from the cursor on
enter the packet until one does not fit. At the smallest MTU at least five records fit, so that
a round that stops has passed five handles. The parser of an accepted packet recovers exactly
the records that the pass wrote.

## Main definitions

* `recordRead`, `Due`: the record of a handle in an offer, and the memory's condition on it
* `Pass`: what a sampling pass put in its packet
* `OfferEffect`: what an offer does to a stream
* `Rotates`: the cursor stands at a handle

## Main results

* `sampleLoop_spec`: the sampling loop
* `rememberAcceptedRecords_eq`: the parser inverts the writer
* `offerEffect_offer`: every offer has one of the effects
* `rotates_after`: the cursor of every run
-/

namespace AccessoryController.CompanionProtocol

open ExtensibleLiveSignalPacketBuilder (packetLimitOf)
open RoundRobin VehicleSignals

variable {records : List LiveRecord} {sampled : Sampled} {packet : ExtensibleLiveSignalPacket}

namespace ExtensibleLiveSignalStream

variable (catalog : SignalCatalogExport) (provider : SignalCatalogView)
  (s : ExtensibleLiveSignalStream) (o : Offer)

/-- The stream takes a sample. -/
def Opens : Prop :=
  s.streaming catalog = true ∧ s.configPaused = false ∧ s.sampleDue o.now

/-- The header of the packets of an offer. -/
def header : LiveHeader :=
  ⟨s.nextSequence, if o.telemetryStarted then kTelemetryStartedFlag else 0,
    s.conditions.catalogToken⟩

/-- The record that an offer reads for a handle. -/
def recordRead (handle : ℕ) : Option LiveRecord :=
  recordOf catalog provider handle (o.read (catalog.providerIdForHandle handle))

/-- The memory has no record of the handle, or another one, or an old one. -/
def Due (record : LiveRecord) : Prop :=
  (s.accepted record.handle).acceptedAt = none ∨
    (s.accepted record.handle).bytes ≠ record.bytes ∨
    elapsed (s.accepted record.handle).acceptedAt kLiveHeartbeatInterval o.now

/-- **What a sampling pass put in its packet**: due records of distinct handles, those of one
round from the cursor. -/
structure Pass (records : List LiveRecord) (packet : ExtensibleLiveSignalPacket) (cursor : ℕ) :
    Prop where
  bytes : packet.bytes = (s.header o).bytes ++ records.flatMap LiveRecord.bytes
  due : ∀ record ∈ records,
    recordRead catalog provider o record.handle = some record ∧ s.Due o record
  distinct : (records.map LiveRecord.handle).Nodup
  round : Round catalog.signalCount 5 (s.handleDue catalog provider o)
    (· ∈ records.map LiveRecord.handle) s.nextHandle cursor
  client : catalog.signalCount ≠ 0 → Client catalog.signalCount cursor

/-- The memory after an accepted packet. -/
def remembered (records : List LiveRecord) (now : LiveStreamClock) (accepted : ℕ → AcceptedRecord)
    (handle : ℕ) : AcceptedRecord :=
  (records.find? fun record => record.handle = handle).elim (accepted handle)
    fun record => ⟨record.bytes, some now⟩

/-- **The effect of an offer**: none; a sample without an attempt, when nothing is due; or an
attempt, after which the memory changes only if the sink accepted the packet. -/
inductive OfferEffect : ExtensibleLiveSignalStream → Option Attempt → Prop
  | closed (shut : ¬ s.Opens catalog o) : OfferEffect s none
  | quiet (opens : s.Opens catalog o)
      (nothing : ∀ handle, ¬ s.handleDue catalog provider o handle) :
      OfferEffect { s with lastSample := some o.now } none
  | attempted (opens : s.Opens catalog o) (records : List LiveRecord)
      (packet : ExtensibleLiveSignalPacket) (cursor : ℕ)
      (emptyPacketAcceptedAt : Option LiveStreamClock)
      (pass : s.Pass catalog provider o records packet cursor) :
      OfferEffect
        { s with
          lastSample := some o.now
          nextHandle := cursor
          nextSequence := s.nextSequence + 1
          emptyPacketAcceptedAt
          accepted :=
            if o.tryQueue packet then remembered records o.now s.accepted else s.accepted }
        (some ⟨packet, o.tryQueue packet⟩)

variable {catalog provider} {s} {o}

/-! ### Due handles -/

/-- The builders of a streaming stream have room for five records. -/
theorem writes_builder (streaming : s.streaming catalog = true) :
    (s.builder catalog o).Writes (s.header o) [] ∧ 61 ≤ (s.builder catalog o).packetLimit := by
  unfold ExtensibleLiveSignalStream.streaming at streaming
  simp only [Bool.and_eq_true, decide_eq_true_eq] at streaming
  obtain ⟨⟨⟨⟨available, -⟩, -⟩, mtu⟩, token⟩ := streaming
  have room : 61 ≤ packetLimitOf s.conditions.attMtu := by
    unfold packetLimitOf kExtensibleLiveSignalMtuOverheadBytes kExtensibleLiveSignalMaxPacketBytes
    unfold kMinLiveSignalsAttMtu at mtu
    dsimp only
    split_ifs <;> omega
  obtain ⟨writes, limit⟩ := ExtensibleLiveSignalPacketBuilder.writes_create
    available token (Nat.le_trans (Nat.le_of_ble_eq_true rfl) room)
  exact ⟨writes, limit ▸ room⟩

theorem length_header (header : LiveHeader) :
    header.bytes.length = kExtensibleLiveSignalHeaderBytes := rfl

/-- The record of a known handle is due if the memory says so: it always fits a packet of its
own. -/
theorem handleDue_iff (streaming : s.streaming catalog = true)
    (few : catalog.signalCount ≤ kMaxSignalCatalogSignals) {handle : ℕ} :
    s.handleDue catalog provider o handle ↔
      ∃ record, recordRead catalog provider o handle = some record ∧ s.Due o record := by
  obtain ⟨writes, room⟩ := writes_builder (o := o) streaming
  have spec := @ExtensibleLiveSignalPacketBuilder.appendResult_spec _ _ catalog provider _ writes
    handle (o.read (catalog.providerIdForHandle handle))
  unfold handleDue
  rcases spec with ⟨record, single, hrecord, happend, hwrites, -⟩ | ⟨happend, hreason⟩
  · obtain ⟨rfl, hwritten⟩ := recordOf_written few hrecord
    have hsingle : single.packet.bytes = (s.header o).bytes ++ record.bytes := by
      rw [hwrites.bytes, List.nil_append, List.flatMap_singleton]
    have hdrop : single.packet.bytes.drop kExtensibleLiveSignalHeaderBytes = record.bytes := by
      rw [hsingle, ← length_header (s.header o), List.drop_left]
    rw [happend]
    constructor
    · rintro ⟨-, -, -, -, due⟩
      rw [hdrop] at due
      exact ⟨record, hrecord, due⟩
    · rintro ⟨record', hrecord', due⟩
      obtain rfl := Option.some.inj (hrecord.symm.trans hrecord')
      refine ⟨rfl, hwritten.positive, hwritten.known, ?_, ?_⟩
      · rw [hsingle, List.length_append, length_header, LiveRecord.length_bytes]
        exact Nat.lt_add_of_pos_right (Nat.add_pos_left (Nat.le_of_ble_eq_true rfl) _)
      · rw [hdrop]
        exact due
  · rw [happend]
    constructor
    · rintro ⟨impossible, -⟩
      cases impossible
    · rintro ⟨record, hrecord, -⟩
      obtain ⟨rfl, hwritten⟩ := recordOf_written few hrecord
      exfalso
      rcases hreason with (hzero | hlarge | hmem) | hnone | ⟨record', hrecord', hfull⟩
      · exact hwritten.positive hzero
      · exact absurd (Nat.le_trans hwritten.known few) (Nat.not_le.mpr hlarge)
      · exact List.not_mem_nil ((writes.handles _).mp hmem)
      · exact absurd (hrecord.symm.trans hnone) (Option.some_ne_none _)
      · obtain rfl := Option.some.inj (hrecord.symm.trans hrecord')
        have hlength := hwritten.length_le
        rw [writes.bytes, List.flatMap_nil, List.append_nil, length_header] at hfull
        unfold kExtensibleLiveSignalHeaderBytes at hfull
        unfold kMaxRecordBytes at hlength
        omega

/-! ### The sampling loop -/

variable (catalog provider s o) in
/-- The state of the sampling loop after it visited some handles from the cursor on. -/
structure Progress (visited : ℕ) (sampled : Sampled) (records : List LiveRecord) : Prop where
  writes : sampled.builder.Writes (s.header o) records
  room : 61 ≤ sampled.builder.packetLimit
  due : ∀ record ∈ records, recordRead catalog provider o record.handle = some record ∧
    s.Due o record ∧ ∃ i < visited, (next catalog.signalCount)^[i] s.nextHandle = record.handle
  covers : ∀ i < visited,
    s.handleDue catalog provider o ((next catalog.signalCount)^[i] s.nextHandle) →
    (next catalog.signalCount)^[i] s.nextHandle ∈ records.map LiveRecord.handle
  few : records.length ≤ visited
  appended : sampled.appended = !records.isEmpty
  client : Client catalog.signalCount sampled.cursorAfterAttempt

theorem length_flatMap_bytes_le {signalCount : ℕ}
    (written : ∀ record ∈ records, record.Written signalCount) :
    (records.flatMap LiveRecord.bytes).length ≤ kMaxRecordBytes * records.length := by
  induction records with
  | nil => exact Nat.le_refl 0
  | cons record records ih =>
    have first := (written record List.mem_cons_self).length_le
    have later := ih fun r hr => written r (List.mem_cons_of_mem record hr)
    rw [List.flatMap_cons, List.length_append, List.length_cons, Nat.mul_succ]
    omega

/-- **The sampling loop** passes every handle, or stops at one after at least five records. -/
theorem sampleLoop_spec (streaming : s.streaming catalog = true)
    (few : catalog.signalCount ≤ kMaxSignalCatalogSignals)
    (client : Client catalog.signalCount s.nextHandle) {visits visited : ℕ}
    (all : visited + visits = catalog.signalCount)
    (progress : Progress catalog provider s o visited sampled records) :
    ∃ stop records', stop ≤ catalog.signalCount ∧
      Progress catalog provider s o stop (s.sampleLoop catalog provider o visits
        ((next catalog.signalCount)^[visited] s.nextHandle) sampled) records' ∧
      (stop < catalog.signalCount → 5 ≤ records'.length ∧
        (s.sampleLoop catalog provider o visits
          ((next catalog.signalCount)^[visited] s.nextHandle) sampled).cursorAfterAttempt =
            (next catalog.signalCount)^[stop] s.nextHandle) := by
  induction visits generalizing visited sampled records with
  | zero =>
    exact ⟨visited, records, Nat.le_of_eq all, progress,
      fun stopped => absurd all (Nat.ne_of_lt stopped)⟩
  | succ visits ih =>
    have inside : visited < catalog.signalCount := by omega
    have hclient := client.iterate inside
    have hfollowing : CompanionProtocol.nextHandle
        ((next catalog.signalCount)^[visited] s.nextHandle) catalog.signalCount =
          (next catalog.signalCount)^[visited + 1] s.nextHandle := by
      rw [Function.iterate_succ_apply']
      rfl
    unfold sampleLoop
    rw [hfollowing]
    by_cases due : s.handleDue catalog provider o
        ((next catalog.signalCount)^[visited] s.nextHandle)
    · rw [if_pos due]
      obtain ⟨record, hrecord, hdue⟩ := (handleDue_iff streaming few).mp due
      obtain ⟨hhandle, hwritten⟩ := recordOf_written few hrecord
      rcases @ExtensibleLiveSignalPacketBuilder.appendResult_spec _ _ catalog provider _
        progress.writes _ (o.read (catalog.providerIdForHandle
          ((next catalog.signalCount)^[visited] s.nextHandle))) with
        ⟨record', builder', hrecord', happend, hwrites, hlimit⟩ | ⟨happend, hreason⟩
      · obtain rfl := Option.some.inj (hrecord.symm.trans hrecord')
        rw [happend]
        refine ih (by omega) ⟨hwrites, hlimit ▸ progress.room, ?_, ?_, ?_, ?_, ?_⟩
        · intro r hr
          rcases List.mem_append.mp hr with hr | hr
          · obtain ⟨hread, hr, i, hi, hplace⟩ := progress.due r hr
            exact ⟨hread, hr, i, Nat.lt_succ_of_lt hi, hplace⟩
          · rw [List.mem_singleton.mp hr, hhandle]
            exact ⟨hrecord, hdue, visited, Nat.lt_succ_self _, rfl⟩
        · intro i hi hdue
          rw [List.map_append, List.mem_append]
          rcases Nat.lt_succ_iff_lt_or_eq.mp hi with hi | rfl
          · exact Or.inl (progress.covers i hi hdue)
          · exact Or.inr (List.mem_singleton.mpr hhandle.symm)
        · rw [List.length_append, List.length_singleton]
          exact Nat.succ_le_succ progress.few
        · show true = _
          simp
        · show Client _ ((next catalog.signalCount)^[visited + 1] s.nextHandle)
          rw [Function.iterate_succ_apply']
          exact hclient.next
      · -- the loop stops here: the record is new and well formed, but the packet is full
        rw [happend]
        refine ⟨visited, records, Nat.le_of_lt inside,
          ⟨progress.writes, progress.room, progress.due, progress.covers, progress.few,
            progress.appended, hclient⟩, fun _ => ⟨?_, rfl⟩⟩
        rcases hreason with (hzero | hlarge | hmem) | hnone | ⟨record', hrecord', hfull⟩
        · exact absurd hzero (Nat.ne_of_gt hclient.1)
        · exact absurd (Nat.le_trans hclient.2 few) (Nat.not_le.mpr hlarge)
        · obtain ⟨r, hr, heq⟩ := List.mem_map.mp ((progress.writes.handles _).mp hmem)
          obtain ⟨-, -, i, hi, hplace⟩ := progress.due r hr
          have : i = visited :=
            iterate_next_inj client (Nat.lt_trans hi inside) inside (hplace.trans heq)
          exact absurd this (Nat.ne_of_lt hi)
        · exact absurd (hrecord.symm.trans hnone) (Option.some_ne_none _)
        · obtain rfl := Option.some.inj (hrecord.symm.trans hrecord')
          have hlength := hwritten.length_le
          have hwrittens : ∀ r ∈ records, r.Written catalog.signalCount := fun r hr =>
            (recordOf_written few (progress.due r hr).1).2
          have hall := length_flatMap_bytes_le hwrittens
          have hroom := progress.room
          rw [progress.writes.bytes, List.length_append, length_header] at hfull
          unfold kMaxRecordBytes at hlength hall
          unfold kExtensibleLiveSignalHeaderBytes at hfull
          omega
    · rw [if_neg due]
      refine ih (by omega) ⟨progress.writes, progress.room, ?_, ?_, ?_, progress.appended,
        progress.client⟩
      · intro r hr
        obtain ⟨hread, hr, i, hi, hplace⟩ := progress.due r hr
        exact ⟨hread, hr, i, Nat.lt_succ_of_lt hi, hplace⟩
      · intro i hi hdue
        rcases Nat.lt_succ_iff_lt_or_eq.mp hi with hi | rfl
        · exact progress.covers i hi hdue
        · exact absurd hdue due
      · exact Nat.le_succ_of_le progress.few

/-! ### The parser of an accepted packet -/

/-- One record in front of the bytes that remain. -/
theorem rememberLoop_record {record : LiveRecord} (written : record.Written catalog.signalCount)
    (now : LiveStreamClock) (fuel : ℕ) (accepted : ℕ → AcceptedRecord) (rest : List UInt8) :
    rememberLoop catalog now (fuel + 1) accepted (record.bytes ++ rest) =
      rememberLoop catalog now fuel
        (Function.update accepted record.handle ⟨record.bytes, some now⟩) rest := by
  have hshort := written.short
  have hsize : 1 + (UInt8.ofNat (4 + record.value.length)).toNat = record.bytes.length := by
    rw [UInt8.toNat_ofNat', LiveRecord.length_bytes, kExtensibleLiveSignalRecordHeaderBytes]
    omega
  have hlength := written.length_le
  have hheader : kExtensibleLiveSignalRecordHeaderBytes ≤ record.bytes.length := by
    rw [LiveRecord.length_bytes]
    exact Nat.le_add_right _ _
  have hhandle : LittleEndian.readU16 (record.bytes ++ rest) 1 = record.handle := by
    have hshift : LittleEndian.readU16 (record.bytes ++ rest) 1 =
        LittleEndian.readU16 (LittleEndian.u16 record.handle ++
          (record.typeCode :: record.status :: record.value ++ rest)) 0 := rfl
    rw [hshift, LittleEndian.readU16_u16]
    exact Nat.mod_eq_of_lt written.word
  have hopen : ¬ (kMaxRecordBytes < record.bytes.length ∨
      (record.bytes ++ rest).length < record.bytes.length ∨
      record.bytes.length < kExtensibleLiveSignalRecordHeaderBytes) := by
    rw [List.length_append]
    omega
  have hknown : ¬ (record.handle = 0 ∨ catalog.signalCount < record.handle) :=
    not_or.mpr ⟨written.positive, Nat.not_lt.mpr written.known⟩
  obtain ⟨length, body, hbytes⟩ : ∃ length body, record.bytes ++ rest = length :: body ∧
      length = UInt8.ofNat (4 + record.value.length) := ⟨_, _, rfl, rfl⟩
  rw [hbytes.1] at hopen hhandle ⊢
  rw [rememberLoop]
  rw [hbytes.2, hsize, ← hbytes.2, if_neg hopen, hhandle, if_neg hknown, ← hbytes.1,
    List.take_left, List.drop_left]

/-- The parser over the records of a packet. -/
theorem rememberLoop_eq (written : ∀ record ∈ records, record.Written catalog.signalCount)
    (now : LiveStreamClock) {fuel : ℕ} (enough : records.length ≤ fuel)
    (accepted : ℕ → AcceptedRecord) :
    rememberLoop catalog now fuel accepted (records.flatMap LiveRecord.bytes) =
      records.foldl (fun accepted record =>
        Function.update accepted record.handle ⟨record.bytes, some now⟩) accepted := by
  induction records generalizing fuel accepted with
  | nil => cases fuel <;> rfl
  | cons record records ih =>
    cases fuel with
    | zero => exact absurd enough (Nat.not_succ_le_zero _)
    | succ fuel =>
      rw [List.flatMap_cons, rememberLoop_record (written record List.mem_cons_self),
        List.foldl_cons]
      exact ih (fun r hr => written r (List.mem_cons_of_mem record hr))
        (Nat.le_of_succ_le_succ enough) _

/-- **The parser inverts the writer**: it remembers the records of the packet. -/
theorem rememberAcceptedRecords_eq {header : LiveHeader}
    (bytes : packet.bytes = header.bytes ++ records.flatMap LiveRecord.bytes)
    (written : ∀ record ∈ records, record.Written catalog.signalCount)
    (distinct : (records.map LiveRecord.handle).Nodup) (now : LiveStreamClock) :
    s.rememberAcceptedRecords catalog packet now =
      { s with accepted := remembered records now s.accepted } := by
  have hdrop : packet.bytes.drop kExtensibleLiveSignalHeaderBytes =
      records.flatMap LiveRecord.bytes := by
    rw [bytes, ← length_header header, List.drop_left]
  have enough : records.length ≤ (records.flatMap LiveRecord.bytes).length :=
    Wire.length_le_flatMap records fun record _ => List.cons_ne_nil _ _
  unfold rememberAcceptedRecords
  dsimp only
  rw [hdrop, rememberLoop_eq written now enough]
  congr 1
  funext handle
  refine Pointwise.foldl (I := fun _ => True)
    (fun (accepted : ℕ → AcceptedRecord) handle => accepted handle) LiveRecord.handle
    (fun record (_ : AcceptedRecord) => ⟨record.bytes, some now⟩) (fun _ _ _ _ => trivial)
    ?_ ?_ distinct trivial handle
  · intro accepted record _ _
    exact Function.update_self _ _ _
  · intro accepted record _ _ k hk
    exact Function.update_of_ne hk _ _

/-! ### The effect of an offer -/

theorem client_of_handleDue {handle : ℕ} (due : s.handleDue catalog provider o handle) :
    Client catalog.signalCount handle :=
  ⟨Nat.pos_of_ne_zero due.2.1, due.2.2.1⟩

/-- A loop that has passed every handle, or stopped with five records, is a sampling pass. -/
theorem Progress.pass {stop : ℕ} (progress : Progress catalog provider s o stop sampled records)
    (inside : stop ≤ catalog.signalCount)
    (stopped : stop < catalog.signalCount → 5 ≤ records.length ∧
      sampled.cursorAfterAttempt = (next catalog.signalCount)^[stop] s.nextHandle) :
    s.Pass catalog provider o records sampled.builder.packet sampled.cursorAfterAttempt where
  bytes := progress.writes.bytes
  due record hrecord := ⟨(progress.due record hrecord).1, (progress.due record hrecord).2.1⟩
  distinct := progress.writes.distinct
  round := ⟨stop, inside, progress.covers, fun h =>
    ⟨Nat.le_trans (stopped h).1 progress.few, (stopped h).2⟩⟩
  client _ := progress.client

/-- A loop without a record has found nothing due. -/
theorem Progress.nothing {stop : ℕ} (progress : Progress catalog provider s o stop sampled [])
    (client : Client catalog.signalCount s.nextHandle) (all : ¬ stop < catalog.signalCount)
    (handle : ℕ) : ¬ s.handleDue catalog provider o handle := by
  intro due
  obtain ⟨i, hi, rfl⟩ := exists_iterate_next client (client_of_handleDue due)
  exact List.not_mem_nil (progress.covers i (Nat.lt_of_lt_of_le hi (Nat.le_of_not_lt all)) due)

/-- **Every offer has one of the effects.** -/
theorem offerEffect_offer (few : catalog.signalCount ≤ kMaxSignalCatalogSignals)
    (client : catalog.signalCount ≠ 0 → Client catalog.signalCount s.nextHandle) :
    OfferEffect catalog provider s o (s.offer catalog provider o).1
      (s.offer catalog provider o).2 := by
  unfold offer
  by_cases opens : s.Opens catalog o
  · have hopen : ¬ (!s.streaming catalog ∨ s.configPaused ∨ ¬ s.sampleDue o.now) := by
      simp [opens.1, opens.2.1, opens.2.2]
    obtain ⟨writes, room⟩ := writes_builder (o := o) opens.1
    have hvalid : ¬ (!(({ s with lastSample := some o.now } :
        ExtensibleLiveSignalStream).builder catalog o).valid) = true := by
      show ¬ (!(s.builder catalog o).valid) = true
      simp [writes.valid]
    rw [if_neg hopen]
    dsimp only
    rw [if_neg hvalid]
    by_cases hcount : catalog.signalCount = 0
    · rw [if_pos hcount]
      have hnone : ∀ handle, ¬ s.handleDue catalog provider o handle := fun handle due => by
        have := client_of_handleDue due
        unfold Client at this
        omega
      -- the packet of an empty catalogue has no records
      have hpass : s.Pass catalog provider o [] (s.builder catalog o).packet s.nextHandle :=
        ⟨writes.bytes, fun _ h => absurd h List.not_mem_nil, List.nodup_nil,
          ⟨0, Nat.zero_le _, fun i hi => absurd hi (Nat.not_lt_zero i),
            fun h => absurd hcount (Nat.ne_of_gt h)⟩, fun h => absurd hcount h⟩
      split
      · exact OfferEffect.quiet opens hnone
      · have heffect := fun emptyAt => OfferEffect.attempted opens [] _ _ emptyAt hpass
        have hmemory : (if o.tryQueue (s.builder catalog o).packet then
            remembered [] o.now s.accepted else s.accepted) = s.accepted := ite_self _
        rw [hmemory] at heffect
        split
        · rename_i hqueued
          have := heffect (some o.now)
          rw [show o.tryQueue (s.builder catalog o).packet = true from hqueued] at this
          exact this
        · rename_i hrefused
          have := heffect s.emptyPacketAcceptedAt
          rw [show o.tryQueue (s.builder catalog o).packet = false from
            Bool.eq_false_iff.mpr hrefused] at this
          exact this
    · rw [if_neg hcount]
      -- the loop runs after the time of the sample is noted, which it does not read
      set s₁ : ExtensibleLiveSignalStream := { s with lastSample := some o.now } with hs₁
      have hstreaming : s₁.streaming catalog = true := opens.1
      have hclient : Client catalog.signalCount s₁.nextHandle := client hcount
      have start : Progress catalog provider s₁ o 0
          ⟨s₁.builder catalog o, s₁.nextHandle, false⟩ [] :=
        ⟨writes, room, fun _ h => absurd h List.not_mem_nil,
          fun i hi => absurd hi (Nat.not_lt_zero i), Nat.le_refl 0, rfl, hclient⟩
      obtain ⟨stop, records, inside, progress, stopped⟩ :=
        sampleLoop_spec hstreaming few hclient (Nat.zero_add _) start
      rw [Function.iterate_zero_apply] at progress stopped
      set sampled := s₁.sampleLoop catalog provider o catalog.signalCount s₁.nextHandle
        ⟨s₁.builder catalog o, s₁.nextHandle, false⟩ with hsampled
      obtain ⟨bytes, due, distinct, round, cursor⟩ := progress.pass inside stopped
      have hpass : s.Pass catalog provider o records sampled.builder.packet
          sampled.cursorAfterAttempt := ⟨bytes, due, distinct, round, cursor⟩
      have happended := progress.appended
      cases records with
      | nil =>
        rw [happended, List.isEmpty_nil, Bool.not_true, Bool.not_false, if_pos rfl]
        have all : ¬ stop < catalog.signalCount := fun h =>
          absurd (stopped h).1 (Nat.not_succ_le_zero _)
        have hnothing : ∀ handle, ¬ s₁.handleDue catalog provider o handle :=
          progress.nothing hclient all
        exact OfferEffect.quiet opens hnothing
      | cons record records =>
        rw [happended, List.isEmpty_cons, Bool.not_false, Bool.not_true, if_neg Bool.false_ne_true]
        have heffect := OfferEffect.attempted opens _ _ _ s.emptyPacketAcceptedAt hpass
        have written : ∀ r ∈ record :: records, r.Written catalog.signalCount := fun r hr =>
          (recordOf_written few (due r hr).1).2
        split
        · rename_i hqueued
          rw [rememberAcceptedRecords_eq bytes written distinct]
          rw [hqueued] at heffect
          exact heffect
        · rename_i hrefused
          rw [Bool.eq_false_iff.mpr hrefused] at heffect
          exact heffect
  · have hshut : !s.streaming catalog ∨ s.configPaused ∨ ¬ s.sampleDue o.now := by
      by_contra hopen
      simp only [not_or, Bool.not_eq_true', Bool.not_eq_false, not_not, Bool.not_eq_true] at hopen
      exact opens hopen
    rw [if_pos hshut]
    exact OfferEffect.closed opens

/-! ### The rotation -/

variable (catalog) in
/-- The cursor stands at a handle, if there is one. -/
def Rotates (s : ExtensibleLiveSignalStream) : Prop :=
  catalog.signalCount ≠ 0 → Client catalog.signalCount s.nextHandle

theorem Pass.written {s : ExtensibleLiveSignalStream} {o : Offer} {cursor : ℕ}
    (few : catalog.signalCount ≤ kMaxSignalCatalogSignals)
    (pass : s.Pass catalog provider o records packet cursor) :
    ∀ record ∈ records, record.Written catalog.signalCount :=
  fun record hrecord => (recordOf_written few (pass.due record hrecord).1).2

/-- The packet of a pass decodes to its records. -/
theorem Pass.decodes {s : ExtensibleLiveSignalStream} {o : Offer} {cursor : ℕ}
    (few : catalog.signalCount ≤ kMaxSignalCatalogSignals)
    (pass : s.Pass catalog provider o records packet cursor) :
    decodePacket packet.bytes = some (s.header o, records) := by
  rw [pass.bytes]
  exact decodePacket_bytes _ (pass.written few) pass.distinct

theorem rotates_restartStream (s : ExtensibleLiveSignalStream) :
    Rotates catalog s.restartStream :=
  fun h => ⟨Nat.le_refl 1, Nat.pos_of_ne_zero h⟩

/-- A change of the conditions restarts the stream, or leaves everything else alone. -/
theorem updateConditions_cases (s : ExtensibleLiveSignalStream) (update : Conditions → Conditions) :
    (s.streaming catalog = false ∧ (s.updateConditions catalog update).streaming catalog = true ∧
        s.updateConditions catalog update =
          { s with conditions := update s.conditions }.restartStream) ∨
      (¬ (s.streaming catalog = false ∧
          (s.updateConditions catalog update).streaming catalog = true) ∧
        s.updateConditions catalog update = { s with conditions := update s.conditions }) := by
  unfold updateConditions
  dsimp only
  split
  · rename_i begins
    rw [Bool.and_eq_true, Bool.not_eq_true'] at begins
    exact Or.inl ⟨begins.1, begins.2, rfl⟩
  · rename_i steady
    rw [Bool.and_eq_true, Bool.not_eq_true'] at steady
    exact Or.inr ⟨steady, rfl⟩

theorem Rotates.updateConditions {s : ExtensibleLiveSignalStream} (rotates : Rotates catalog s)
    (update : Conditions → Conditions) : Rotates catalog (s.updateConditions catalog update) := by
  rcases updateConditions_cases s update with ⟨-, -, heq⟩ | ⟨-, heq⟩
  · rw [heq]
    exact rotates_restartStream _
  · rw [heq]
    exact rotates

/-- **One call keeps the rotation.** -/
theorem rotates_step (few : catalog.signalCount ≤ kMaxSignalCatalogSignals)
    {s : ExtensibleLiveSignalStream} (rotates : Rotates catalog s) (call : StreamCall) :
    Rotates catalog (s.step catalog provider call).1 := by
  cases call with
  | setNotificationsEnabled enabled => exact rotates.updateConditions _
  | setLinkSecured secured => exact rotates.updateConditions _
  | setAttMtu mtu => exact rotates.updateConditions _
  | setCatalogToken token =>
    show Rotates catalog (s.setCatalogToken token)
    unfold setCatalogToken
    split
    · exact rotates
    · exact rotates_restartStream _
  | setConfigPaused paused => exact rotates
  | resetConnection => exact rotates_restartStream s
  | offer o =>
    show Rotates catalog (s.offer catalog provider o).1
    have effect := @offerEffect_offer catalog provider s o few rotates
    generalize s.offer catalog provider o = result at effect ⊢
    obtain ⟨s', output⟩ := result
    cases effect with
    | closed => exact rotates
    | quiet => exact rotates
    | attempted _ _ _ _ _ pass => exact pass.client

theorem rotates_after (few : catalog.signalCount ≤ kMaxSignalCatalogSignals)
    (calls : List StreamCall) :
    Rotates catalog (Machine.after (step catalog provider) {} calls) :=
  Machine.invariant (P := fun s _ => Rotates catalog s) (rotates_restartStream {})
    (fun _ _ call rotates => rotates_step few rotates call) calls

/-- The gear selector is in park, read 100 ms after the start. -/
def gearOffer : Offer where
  now := 100
  telemetryStarted := true
  read _ := { status := .ok, value := some { value := some (.enumeration 2), availability := .fresh } }
  tryQueue _ := false

end ExtensibleLiveSignalStream

end AccessoryController.CompanionProtocol
