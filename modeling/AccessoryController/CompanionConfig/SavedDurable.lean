import AccessoryController.CompanionConfig.ConfigService
import AccessoryController.ControllerConfig.OverrideAtomic
import AccessoryController.ControllerConfig.Persisted.StoredOverride

/-!
# Saved means durable and reportable

A commit that reports a saved document has parsed it, applied it to scratch targets and written
its canonical text. The text loads as the model it was made from, so the next boot selects that
model, applies it as the dry run did, and serializes it to the same text again. Length and
checksum of the report are those of the text, of every page that is served for it, and of the
pages put together.

## Main definitions

* `nvsBackend`: the store over the two slots in NVS, whose calls may fail
* `nextBoot`: what a transfer serves after the next boot
* `Reported`: an active document that a report describes, with its pages
* `ServiceCall`, `recording`: the calls of the service, on a store that records its writes

## Main results

* `saveOverride_saved`: what a save that succeeds wrote
* `boot_of_stored`: a boot from a stored text whose model applies serves that text
* `page_spec`, `readBackData_eq`: a page, and the pages put together
* `saved_means_durable`: the contract of a commit
-/

open AccessoryController.ControllerConfig (Answer Bytes NvsMap NvsResult StoreCall reachedMap
  kMaxStoredControllerConfigJsonBytes)

namespace AccessoryController.CompanionConfig

open CompanionProtocol
open LittleEndian
open Persisted
open ActionEngine (Sink)
open VehicleSignals (SignalCatalogView)

/-! ### Saving -/

variable {config : ControllerConfig} {json : Bytes}

section

variable {library : ExternalLibrary} {Store : Type} {backend : ConfigStoreBackend Store}
  {catalog : SignalCatalogView} {sink : Sink}

/-- A text that parses passed the limits before. -/
theorem preflight_of_parses (parses : parseControllerConfig library json = .ok config)
    (unterminated : withoutTerminator json = json) : preflightInput json = .ok := by
  unfold parseControllerConfig at parses
  simp only [unterminated] at parses
  split at parses
  · cases parses
  · cases preflight : preflightInput json with
    | ok => rfl
    | embeddedNul =>
      rw [preflight] at parses
      cases parses
    | tooDeep =>
      rw [preflight] at parses
      cases parses
    | resourceExhausted =>
      rw [preflight] at parses
      cases parses

/-- The canonical text of an accepted model loads as no other model. -/
theorem canonical_of_parses (hlibrary : library.Faithful) {loaded : ControllerConfig}
    (parsed : parseControllerConfig library json = .ok config)
    (bounded : (serializeControllerConfig library config).length ≤
      kMaxStoredControllerConfigJsonBytes)
    (loads : parseControllerConfig library (serializeControllerConfig library config) =
      .ok loaded) :
    parseControllerConfig library (serializeControllerConfig library config) = .ok config := by
  obtain ⟨valid, nulFree⟩ := parseControllerConfig_returns library json config parsed
  have passes := preflight_of_parses loads (withoutTerminator_serialize library config)
  refine (configuration_round_trip library hlibrary).1 config valid nulFree ⟨?_, ?_, ?_⟩
  · exact bounded.trans (by decide)
  · rw [passes]
    decide
  · rw [passes]
    decide

/-- What a save that succeeds wrote. -/
structure Writes (library : ExternalLibrary) (backend : ConfigStoreBackend Store)
    (json : Bytes) (store : Store) (config : ControllerConfig) : Prop where
  parsed : parseControllerConfig library json = .ok config
  bounded : (serializeControllerConfig library config).length ≤
    kMaxStoredControllerConfigJsonBytes
  written : (backend.writeOverride (serializeControllerConfig library config) store).1.ok = true
  loads : parseControllerConfig library (serializeControllerConfig library config) = .ok config

theorem saveOverride_saved (hlibrary : library.Faithful) {store : Store}
    (saved : (saveOverride library backend json store).1.status = .saved) :
    ∃ config, Writes library backend json store config ∧
      saveOverride library backend json store =
        ({ status := .saved, canonicalJson := serializeControllerConfig library config },
          (backend.writeOverride (serializeControllerConfig library config) store).2) := by
  unfold saveOverride at saved ⊢
  cases parsed : parseControllerConfig library json with
  | error diagnostic => simp [parsed] at saved
  | ok config =>
    simp only [parsed] at saved ⊢
    by_cases large :
        kMaxStoredControllerConfigJsonBytes < (serializeControllerConfig library config).length
    · simp [large] at saved
    · rw [if_neg large] at saved ⊢
      have bounded := Nat.not_lt.1 large
      cases loads : parseControllerConfig library (serializeControllerConfig library config) with
      | error diagnostic => simp [loads] at saved
      | ok loaded =>
        simp only [loads, writtenResult] at saved ⊢
        have written :
            (backend.writeOverride (serializeControllerConfig library config) store).1.ok =
              true := by
          by_contra refused
          rw [Bool.not_eq_true] at refused
          simp [refused] at saved
        refine ⟨config, ⟨parsed, bounded, written, ?_⟩, ?_⟩
        · exact canonical_of_parses hlibrary parsed bounded loads
        · simp [written]

/-- **A commit that reports a saved document** parsed it, applied it to scratch targets, and
wrote the canonical text that the report describes. -/
theorem commit_saved (hlibrary : library.Faithful) {service : ConfigService}
    {document : ByteView} {store : Store} {saved : SavedDocument}
    (reports : (service.commit library backend catalog sink document store).1 = .saved saved) :
    ∃ config, Writes library backend document store config ∧
      (dryRun catalog sink config).ok = true ∧
      saved = ⟨(serializeControllerConfig library config).length,
        crc32 (serializeControllerConfig library config)⟩ ∧
      (service.commit library backend catalog sink document store).2 =
        (backend.writeOverride (serializeControllerConfig library config) store).2 := by
  unfold ConfigService.commit at reports ⊢
  by_cases available : service.storeAvailable = true
  · simp only [available, Bool.not_true, Bool.false_eq_true, if_false] at reports ⊢
    cases parsed : parseControllerConfig library document with
    | error diagnostic => simp [parsed, documentRejection] at reports
    | ok config =>
      simp only [parsed] at reports ⊢
      by_cases applies : (dryRun catalog sink config).ok = true
      · simp only [applies, Bool.not_true, Bool.false_eq_true, if_false] at reports ⊢
        have status : (saveOverride library backend document store).1.status = .saved := by
          revert reports
          cases (saveOverride library backend document store).1.status with
          | saved => exact fun _ => rfl
          | invalidCandidate => simp [documentRejection]
          | failed => simp
        obtain ⟨written, writes, result⟩ := saveOverride_saved hlibrary status
        obtain rfl : config = written := by
          simpa [parsed] using writes.parsed
        rw [result] at reports ⊢
        have fits : (serializeControllerConfig library config).length % 2 ^ 16 =
            (serializeControllerConfig library config).length :=
          Nat.mod_eq_of_lt (writes.bounded.trans_lt (by decide))
        refine ⟨config, writes, applies, ?_, rfl⟩
        rw [← fits]
        exact (CommitOutcome.saved.inj reports).symm
      · rw [Bool.not_eq_true] at applies
        simp [applies] at reports
  · rw [Bool.not_eq_true] at available
    simp [available] at reports

end

/-! ### The next boot -/

section

variable {library : ExternalLibrary} {Store : Type} {catalog : SignalCatalogView} {sink : Sink}
  {config : ControllerConfig}

/-- An override that applied to scratch targets applies to the targets of a boot. -/
theorem fallback_of_applies (library : ExternalLibrary)
    (applies : (dryRun catalog sink config).ok = true) (factoryJson : Bytes) :
    let outcome := applyPersistedOverrideWithFactoryFallback library catalog config factoryJson
      sink {} {}
    outcome.result.overrideStatus.ok = true ∧ outcome.configuration = config := by
  unfold dryRun at applies
  simp only [applyPersistedOverrideWithFactoryFallback, applies, if_true]
  exact ⟨trivial, trivial⟩

/-- A boot from a stored text that loads and applies selects the override. -/
theorem boot_of_stored {backend : ConfigStoreBackend Store} {store : Store}
    (present : (backend.readOverride store).1.status = .present)
    (loads : parseControllerConfig library (backend.readOverride store).1.value = .ok config)
    (applies : (dryRun catalog sink config).ok = true) (startRenderer : ℤ → Bool)
    (factoryJson : Bytes) (service : ConfigService) :
    let booted := configureEngineLighting library catalog sink startRenderer
      (some (backend, store)) factoryJson service
    booted.service.source = .override ∧ booted.service.active = config ∧
      booted.service.prepared = false := by
  have selected := loadBootConfiguration_eq backend store factoryJson present loads
  obtain ⟨status, same⟩ := fallback_of_applies library applies factoryJson
  unfold configureEngineLighting
  simp only [selected]
  split
  · exact ⟨rfl, rfl, rfl⟩
  · simp only [if_true, status, Bool.not_true, Bool.false_eq_true, if_false, same]
    exact ⟨rfl, rfl, rfl⟩

/-- The document that a service serves once it has been prepared. -/
theorem prepareBoot_active {service : ConfigService} (source : service.source = .override)
    (prepared : service.prepared = false)
    (bounded : (serializeControllerConfig library service.active).length ≤ 0xFFFF) :
    (service.prepareBoot library).1.status.active =
      ⟨.override, serializeControllerConfig library service.active,
        crc32 (serializeControllerConfig library service.active)⟩ := by
  have selected : ActiveDocument.selected .override
      (serializeControllerConfig library service.active) =
      some ⟨.override, serializeControllerConfig library service.active,
        crc32 (serializeControllerConfig library service.active)⟩ := by
    rw [ActiveDocument.selected, if_neg]
    rintro (absent | large)
    · cases absent
    · exact absurd bounded (Nat.not_le.2 large)
  simp [ConfigService.prepareBoot, ConfigService.activeDocument, source, prepared, selected]

end

/-! ### Pages -/

/-- The fields of a page, as a client reads them. -/
def pageLength (page : EncodedReadBackPage) : ℕ := readU16 page.bytes 1

def pageChecksum (page : EncodedReadBackPage) : ℕ := readU32 page.bytes 3

def pageData (page : EncodedReadBackPage) : List UInt8 := page.bytes.drop kReadBackHeaderBytes

/-- The data of so many pages, each requested where the one before ended. -/
def readBackData (document : ActiveDocument) : ℕ → ℕ → List UInt8
  | 0, _ => []
  | requests + 1, offset =>
    match encodeReadBackPage document offset with
    | none => []
    | some page =>
      pageData page ++ readBackData document requests (offset + (pageData page).length)

/-- An append with room for it. -/
theorem bytes_pushed {page : EncodedReadBackPage} {front bytes : List UInt8}
    (holds : page.bytes = front)
    (room : front.length + bytes.length ≤ kReadBackHeaderBytes + kMaxReadBackDataBytes) :
    (pushed page bytes).bytes = front ++ bytes := by
  subst holds
  obtain ⟨appended, success, result⟩ := BoundedBytes.append_eq_some room
  rw [pushed, success]
  exact result

theorem readU16_cons (byte : UInt8) (rest : List UInt8) (offset : ℕ) :
    readU16 (byte :: rest) (offset + 1) = readU16 rest offset := by
  simp only [readU16, List.getD_cons_succ]

theorem readU32_cons (byte : UInt8) (rest : List UInt8) (offset : ℕ) :
    readU32 (byte :: rest) (offset + 1) = readU32 rest offset := by
  simp only [readU32, readU16, Nat.add_right_comm _ 1, List.getD_cons_succ]

/-- A double word written is the double word read. -/
theorem readU32_u32 (n : ℕ) (rest : List UInt8) : readU32 (u32 n ++ rest) 0 = n % 2 ^ 32 := by
  have low : readU16 (u32 n ++ rest) 0 = n % 2 ^ 16 := by
    rw [u32, List.append_assoc]
    exact readU16_u16 n _
  have high : readU16 (u32 n ++ rest) 2 = n / 2 ^ 16 % 2 ^ 16 := by
    rw [u32, List.append_assoc]
    exact readU16_u16 (n / 2 ^ 16) rest
  rw [readU32, low, high]
  omega

/-- **A page** is its header and the bytes at its offset. -/
theorem page_spec {document : ActiveDocument} {offset : ℕ} (inside : offset ≤ document.length) :
    ∃ page, encodeReadBackPage document offset = some page ∧
      page.bytes = WireCode.code document.source :: (u16 document.length ++
        (u32 document.crc32.toNat ++ (u16 offset ++
          (document.bytes.drop offset).take kMaxReadBackDataBytes))) := by
  have taken : ((document.bytes.drop offset).take kMaxReadBackDataBytes).length ≤
      kMaxReadBackDataBytes := List.length_take_le _ _
  have same : (document.bytes.drop offset).take
        (min (document.bytes.drop offset).length kMaxReadBackDataBytes) =
      (document.bytes.drop offset).take kMaxReadBackDataBytes := by
    rcases Nat.le_total (document.bytes.drop offset).length kMaxReadBackDataBytes with less | more
    · rw [Nat.min_eq_left less, List.take_length, List.take_of_length_le less]
    · rw [Nat.min_eq_right more]
  refine ⟨_, if_neg (Nat.not_lt.2 inside), ?_⟩
  rw [same]
  have header : ([] ++ [WireCode.code document.source] ++ u16 document.length ++
      u32 document.crc32.toNat ++ u16 offset).length = kReadBackHeaderBytes := rfl
  refine (bytes_pushed (bytes_pushed (bytes_pushed (bytes_pushed (bytes_pushed rfl ?_) ?_) ?_)
    ?_) ?_).trans ?_
  · exact Nat.le_of_ble_eq_true rfl
  · exact Nat.le_of_ble_eq_true rfl
  · exact Nat.le_of_ble_eq_true rfl
  · exact Nat.le_of_ble_eq_true rfl
  · exact (congrArg (· + _) header).trans_le (Nat.add_le_add_left taken _)
  · rfl

/-- The pages put together are the document, once there are enough of them. -/
theorem readBackData_eq {document : ActiveDocument} (fits : document.bytes.length < 2 ^ 16)
    (requests : ℕ) {offset : ℕ} (inside : offset ≤ document.bytes.length)
    (enough : document.bytes.length ≤ offset + kMaxReadBackDataBytes * requests) :
    readBackData document requests offset = document.bytes.drop offset := by
  have whole : document.length = document.bytes.length := Nat.mod_eq_of_lt fits
  induction requests generalizing offset with
  | zero =>
    rw [readBackData, List.drop_of_length_le]
    simpa using enough
  | succ requests ih =>
    obtain ⟨page, served, bytes⟩ := page_spec (whole.symm ▸ inside : offset ≤ document.length)
    have data : pageData page = (document.bytes.drop offset).take kMaxReadBackDataBytes := by
      rw [pageData, bytes]
      rfl
    have length : (pageData page).length =
        min kMaxReadBackDataBytes (document.bytes.length - offset) := by
      rw [data, List.length_take, List.length_drop]
    rw [Nat.mul_succ] at enough
    have next : readBackData document requests (offset + (pageData page).length) =
        document.bytes.drop (offset + (pageData page).length) := ih (by omega) (by omega)
    simp only [readBackData, served]
    rw [next, ← List.drop_drop]
    rcases Nat.le_total kMaxReadBackDataBytes (document.bytes.length - offset) with more | less
    · rw [length, Nat.min_eq_left more, data, List.take_append_drop]
    · have rest : (document.bytes.drop offset).length ≤ kMaxReadBackDataBytes := by
        rwa [List.length_drop]
      rw [data, List.take_of_length_le rest, List.drop_length, List.append_nil]

/-! ### The store in NVS -/

abbrev NvsStore := NvsMap × List Answer

/-- The override in its two slots. The answers of the storage decide which calls fail. A call
that power cuts off does not return; a failure stands for it. -/
def nvsBackend (errorName : NvsResult → String) : ConfigStoreBackend NvsStore where
  readOverride store :=
    let ran := ControllerConfig.readOverride errorName store.1 store.2
    (ran.1.getD { status := .failed }, ran.2)
  writeOverride canonicalJson store :=
    let ran := ControllerConfig.writeOverride errorName canonicalJson store.1 store.2
    (ran.1.getD { ok := false }, ran.2)
  clearOverride store :=
    let ran := ControllerConfig.clearOverride errorName store.1 store.2
    (ran.1.getD { ok := false }, ran.2)

/-- The storage after a restart, with calls that succeed. -/
def restarted (store : NvsStore) (spare : ℕ) : NvsStore :=
  (store.1, List.replicate (spare + 3) .happens)

/-- What a write stored is what a boot reads, when the calls of the boot succeed. -/
theorem read_of_written {errorName : NvsResult → String} {old : Option Bytes} {store : NvsStore}
    (holds : ControllerConfig.Stored old store.1)
    (written : ((nvsBackend errorName).writeOverride json store).1.ok = true) (spare : ℕ) :
    ((nvsBackend errorName).readOverride
      (restarted ((nvsBackend errorName).writeOverride json store).2 spare)).1 =
      { status := .present, value := json } := by
  have stored : ControllerConfig.Stored (some json)
      ((nvsBackend errorName).writeOverride json store).2.1 := by
    cases ran : (ControllerConfig.writeOverride errorName json store.1 store.2).1 with
    | none =>
      simp [nvsBackend, ran] at written
    | some result =>
      refine (ControllerConfig.triple_writeOverride.returned holds ran).2 ?_
      simpa [nvsBackend, ran] using written
  have reads : ControllerConfig.ReadsBack errorName
      ((nvsBackend errorName).writeOverride json store).2.1 (some json) :=
    ControllerConfig.readsBack_of_stored stored
  have read := reads (List.replicate (spare + 3) .happens)
    (fun _ mem => List.eq_of_mem_replicate mem) (by rw [List.length_replicate]; omega)
  change (ControllerConfig.readOverride errorName _ _).1.getD _ = _
  rw [restarted, read]
  rfl

/-! ### The report and the next boot -/

/-- An active document that a report describes: its own length and checksum, those that every
served page repeats, and those of the pages put together. -/
structure Reported (saved : SavedDocument) (active : ActiveDocument) : Prop where
  length : active.length = saved.length
  crc32 : active.crc32 = saved.crc32
  served : ∀ offset, (encodeReadBackPage active offset).isSome ↔ offset ≤ saved.length
  pages : ∀ offset page, encodeReadBackPage active offset = some page →
    pageLength page = saved.length ∧ pageChecksum page = saved.crc32.toNat ∧
      pageData page = (active.bytes.drop offset).take kMaxReadBackDataBytes
  whole : ∀ requests, saved.length ≤ kMaxReadBackDataBytes * requests →
    readBackData active requests 0 = active.bytes ∧
      (readBackData active requests 0).length = saved.length ∧
      CompanionProtocol.crc32 (readBackData active requests 0) = saved.crc32

/-- A document is described by its own length and checksum. -/
theorem reported_of_bytes {source : ConfigSource} {bytes : List UInt8}
    (fits : bytes.length < 2 ^ 16) :
    Reported ⟨bytes.length, crc32 bytes⟩ ⟨source, bytes, crc32 bytes⟩ := by
  have length : (⟨source, bytes, crc32 bytes⟩ : ActiveDocument).length = bytes.length :=
    Nat.mod_eq_of_lt fits
  refine ⟨length, rfl, ?_, ?_, ?_⟩
  · intro offset
    constructor
    · intro served
      by_contra beyond
      rw [encodeReadBackPage, length, if_pos (Nat.not_le.1 beyond)] at served
      cases served
    · intro inside
      obtain ⟨page, served, -⟩ := page_spec (length.symm ▸ inside)
      rw [served]
      rfl
  · intro offset page served
    have inside : offset ≤ (⟨source, bytes, crc32 bytes⟩ : ActiveDocument).length := by
      by_contra beyond
      rw [encodeReadBackPage, if_pos (Nat.not_le.1 beyond)] at served
      cases served
    obtain ⟨same, again, content⟩ := page_spec inside
    obtain rfl : page = same := Option.some.inj (served.symm.trans again)
    refine ⟨?_, ?_, ?_⟩
    · rw [pageLength, content, readU16_cons, readU16_u16, length]
      exact Nat.mod_eq_of_lt fits
    · rw [pageChecksum, content]
      change readU32 (_ :: _ :: _ :: (u32 _ ++ _)) 3 = _
      rw [readU32_cons, readU32_cons, readU32_cons, readU32_u32]
      exact Nat.mod_eq_of_lt (crc32 bytes).toNat_lt
    · rw [pageData, content]
      rfl
  · intro requests enough
    have whole : readBackData ⟨source, bytes, crc32 bytes⟩ requests 0 = bytes :=
      readBackData_eq fits requests (Nat.zero_le _) (by rwa [Nat.zero_add])
    exact ⟨whole, congrArg List.length whole, congrArg crc32 whole⟩

/-- What a transfer serves after a boot from the storage that a store was left with. -/
def nextBoot (library : ExternalLibrary) (catalog : SignalCatalogView) (sink : Sink)
    (errorName : NvsResult → String) (startRenderer : ℤ → Bool) (factoryJson : Bytes)
    (service : ConfigService) (store : NvsStore) (spare : ℕ) : ConfigBoot :=
  let booted := configureEngineLighting library catalog sink startRenderer
    (some (nvsBackend errorName, restarted store spare)) factoryJson service
  (booted.service.prepareBoot library).1

/-- After a save the next boot serves the text that was saved. -/
theorem reported_nextBoot {library : ExternalLibrary} {catalog : SignalCatalogView} {sink : Sink}
    {errorName : NvsResult → String} {store : NvsStore} {old : Option Bytes} {document : Bytes}
    (holds : ControllerConfig.Stored old store.1)
    (writes : Writes library (nvsBackend errorName) document store config)
    (applies : (dryRun catalog sink config).ok = true) (startRenderer : ℤ → Bool)
    (factoryJson : Bytes) (service : ConfigService) (spare : ℕ) :
    (nextBoot library catalog sink errorName startRenderer factoryJson service
      ((nvsBackend errorName).writeOverride (serializeControllerConfig library config) store).2
      spare).status.active =
      ⟨.override, serializeControllerConfig library config,
        crc32 (serializeControllerConfig library config)⟩ := by
  have read := read_of_written holds writes.written spare
  unfold nextBoot
  generalize restarted ((nvsBackend errorName).writeOverride
    (serializeControllerConfig library config) store).2 spare = restart at read
  have loads : parseControllerConfig library ((nvsBackend errorName).readOverride restart).1.value =
      .ok config := by
    rw [read]
    exact writes.loads
  have present : ((nvsBackend errorName).readOverride restart).1.status = .present := by
    rw [read]
  obtain ⟨source, active, prepared⟩ :=
    boot_of_stored present loads applies startRenderer factoryJson service
  have served := prepareBoot_active source prepared (by
    rw [active]
    exact writes.bounded.trans (by decide))
  rw [active] at served
  exact served

/-! ### Who writes the store -/

/-- The calls of the service. -/
inductive ServiceCall
  | recordBoot (active : ControllerConfig) (selection : BootConfigurationResult)
      (storeAvailable : Bool)
  | prepareBoot
  | commit (document : ByteView)
  | revertToFactory

/-- A store that keeps every text it is asked to write. -/
def recording {Store : Type} (backend : ConfigStoreBackend Store) :
    ConfigStoreBackend (Store × List Bytes) where
  readOverride store :=
    let read := backend.readOverride store.1
    (read.1, read.2, store.2)
  writeOverride canonicalJson store :=
    let written := backend.writeOverride canonicalJson store.1
    (written.1, written.2, store.2 ++ [canonicalJson])
  clearOverride store :=
    let cleared := backend.clearOverride store.1
    (cleared.1, cleared.2, store.2)

section

variable {Store : Type} (library : ExternalLibrary) (backend : ConfigStoreBackend Store)
  (catalog : SignalCatalogView) (sink : Sink)

/-- One call of the service on its store. -/
def ServiceCall.step (state : ConfigService × Store) :
    ServiceCall → (ConfigService × Store) × Unit
  | .recordBoot active selection storeAvailable =>
    (({ state.1 with active }.recordBoot selection storeAvailable, state.2), ())
  | .prepareBoot => (((state.1.prepareBoot library).2, state.2), ())
  | .commit document =>
    ((state.1, (state.1.commit library backend catalog sink document state.2).2), ())
  | .revertToFactory => ((state.1, (state.1.revertToFactory backend state.2).2), ())

/-- A text that a commit of a document may write. -/
def Committed (document : ByteView) (text : Bytes) : Prop :=
  ∃ config, parseControllerConfig library document = .ok config ∧
    (dryRun catalog sink config).ok = true ∧ text = serializeControllerConfig library config ∧
    text.length ≤ kMaxStoredControllerConfigJsonBytes

variable {library backend catalog sink}

/-- A save writes nothing or the canonical text of its document. -/
theorem recorded_saveOverride (backend : ConfigStoreBackend Store)
    (parsed : parseControllerConfig library json = .ok config) (store : Store × List Bytes) :
    (saveOverride library (recording backend) json store).2.2 = store.2 ∨
      (serializeControllerConfig library config).length ≤ kMaxStoredControllerConfigJsonBytes ∧
        (saveOverride library (recording backend) json store).2.2 =
          store.2 ++ [serializeControllerConfig library config] := by
  unfold saveOverride
  simp only [parsed]
  split
  · exact Or.inl rfl
  · next small =>
    split
    · exact Or.inl rfl
    · exact Or.inr ⟨Nat.not_lt.1 small, rfl⟩

theorem recorded_commit (service : ConfigService) (document : ByteView)
    (store : Store × List Bytes) {text : Bytes}
    (recorded : text ∈ (service.commit library (recording backend) catalog sink document
      store).2.2) :
    text ∈ store.2 ∨ Committed library catalog sink document text := by
  unfold ConfigService.commit at recorded
  split at recorded
  · exact Or.inl recorded
  · cases parsed : parseControllerConfig library document with
    | error diagnostic =>
      rw [parsed] at recorded
      exact Or.inl recorded
    | ok config =>
      simp only [parsed] at recorded
      split at recorded
      · exact Or.inl recorded
      · next applies =>
        have kept : text ∈ (saveOverride library (recording backend) document store).2.2 := by
          revert recorded
          cases (saveOverride library (recording backend) document store).1.status <;> exact id
        rcases recorded_saveOverride backend parsed store with same | ⟨small, added⟩
        · exact Or.inl (same ▸ kept)
        · rw [added, List.mem_append, List.mem_singleton] at kept
          refine kept.imp id fun new => ?_
          exact ⟨config, parsed, by simpa using applies, new, new ▸ small⟩

/-- **Only commits write**: every text that a run of calls asks the store to write is the
canonical text of a committed document that parsed and applied. A revert only clears. -/
theorem written_of_committed (service : ConfigService) (store : Store) (calls : List ServiceCall)
    {text : Bytes}
    (recorded : text ∈ (Machine.after (ServiceCall.step library (recording backend) catalog sink)
      (service, store, []) calls).2.2) :
    ∃ document, ServiceCall.commit document ∈ calls ∧
      Committed library catalog sink document text := by
  induction calls using List.reverseRecOn with
  | nil => cases recorded
  | append_singleton calls call ih =>
    rw [Machine.after_snoc] at recorded
    -- Only the last call may have added to what the calls before recorded.
    have earlier (before : text ∈ (Machine.after
        (ServiceCall.step library (recording backend) catalog sink)
        (service, store, []) calls).2.2) :
        ∃ document, ServiceCall.commit document ∈ calls ++ [call] ∧
          Committed library catalog sink document text := by
      obtain ⟨document, mem, committed⟩ := ih before
      exact ⟨document, List.mem_append_left _ mem, committed⟩
    cases call with
    | recordBoot active selection storeAvailable => exact earlier recorded
    | prepareBoot => exact earlier recorded
    | commit document =>
      rcases recorded_commit _ _ _ recorded with before | committed
      · exact earlier before
      · exact ⟨document, List.mem_append_right _ (List.mem_singleton_self _), committed⟩
    | revertToFactory =>
      refine earlier ?_
      revert recorded
      dsimp only [ServiceCall.step, ConfigService.revertToFactory]
      split <;> exact id

end

/-! ### The contract -/

/-- What a report of a saved document stands for: the document parsed and applied, its canonical
text was written, and from then on the next boot serves what the report says. -/
def SavedHolds (library : ExternalLibrary) (catalog : SignalCatalogView) (sink : Sink)
    (errorName : NvsResult → String) (service : ConfigService) (document : ByteView)
    (store : NvsStore) (saved : SavedDocument) : Prop :=
  ∃ config, Writes library (nvsBackend errorName) document store config ∧
    (dryRun catalog sink config).ok = true ∧
    ∀ (startRenderer : ℤ → Bool) (factoryJson : Bytes) (rebooted : ConfigService) (spare : ℕ),
      Reported saved (nextBoot library catalog sink errorName startRenderer factoryJson rebooted
        (service.commit library (nvsBackend errorName) catalog sink document store).2
        spare).status.active

/-- **Saved means durable and reportable**, from every map that the store can reach and whatever
calls of the storage fail during the commit; and nothing but a commit writes the store. -/
theorem saved_means_durable (library : ExternalLibrary) (hlibrary : library.Faithful)
    (catalog : SignalCatalogView) (sink : Sink) :
    (∀ (errorName : NvsResult → String) (calls : List (StoreCall × List Answer))
      (answers : List Answer) (service : ConfigService) (document : ByteView)
      (saved : SavedDocument),
      (service.commit library (nvsBackend errorName) catalog sink document
        (reachedMap errorName calls, answers)).1 = .saved saved →
      SavedHolds library catalog sink errorName service document
        (reachedMap errorName calls, answers) saved) ∧
    ∀ (Store : Type) (backend : ConfigStoreBackend Store) (service : ConfigService)
      (store : Store) (calls : List ServiceCall) (text : Bytes),
      text ∈ (Machine.after (ServiceCall.step library (recording backend) catalog sink)
        (service, store, []) calls).2.2 →
      ∃ document, ServiceCall.commit document ∈ calls ∧
        Committed library catalog sink document text := by
  refine ⟨?_, fun _ _ service store calls _ => written_of_committed service store calls⟩
  intro errorName calls answers service document saved reports
  obtain ⟨old, holds⟩ := ControllerConfig.stored_reachedMap errorName calls
  obtain ⟨config, writes, applies, rfl, left⟩ := commit_saved hlibrary reports
  refine ⟨config, writes, applies, ?_⟩
  intro startRenderer factoryJson rebooted spare
  have small : (serializeControllerConfig library config).length < 2 ^ 16 :=
    writes.bounded.trans_lt (by decide)
  rw [left, reported_nextBoot holds writes applies]
  exact reported_of_bytes small

/-- A document whose output needs no signal of the catalogue. -/
def flashDocument : Bytes :=
  serializeControllerConfig referenceLibrary { doorConfig with rules := [] }

theorem saved_means_durable_flash :
    SavedHolds referenceLibrary [] 0 (fun _ => "") { active := {}, storeAvailable := true }
      flashDocument (reachedMap (fun _ => "") [], List.replicate 10 .happens)
      ⟨flashDocument.length, crc32 flashDocument⟩ :=
  (saved_means_durable referenceLibrary referenceLibrary_faithful [] 0).1 _ _ _ _ _ _
    (by decide +kernel)

end AccessoryController.CompanionConfig
