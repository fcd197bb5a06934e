import AccessoryController.CompanionProtocol.ConfigStatusValue
import AccessoryController.Library.Wire

/-!
# What a config status value says

The reader of the layout gives back the fields that apply to the state, the result and the boot
flags, and the value depends on nothing else. The path in it is the longest one that fits and ends
between two characters.

## Main definitions

* `ConfigStatusView`: the fields that apply
* `shown`: the fields that apply to a boot and a transfer
* `readConfigStatus`: the reader of the documented layout

## Main results

* `diagnosticPath_of`: the path kept of a text
* `bytes_encodeConfigStatus`: the bytes of a value, from the fields that apply
* `config_status_read`: reading a value, its size and what it is independent of
-/

namespace AccessoryController.CompanionProtocol

open LittleEndian Wire Utf8
open WireCode (code)

/-! ### The fields that apply -/

/-- The status of a rejected dry run as it is reported. -/
structure ApplyReport where
  stage : ApplyStage
  validation : ValidationCode
  «section» : ConfigSection
  index : ℕ
  binding : BindingCode
  engine : EngineConfigCode
  deriving DecidableEq, Repr

/-- The fields of a status value that apply to its state, result and boot flags. -/
structure ConfigStatusView where
  state : TransferState
  result : TransferResult
  flags : BootFlags
  source : ConfigSource
  activeLength : ℕ
  activeCrc32 : ℕ
  lengths : Option (ℕ × ℕ)
  saved : Option (ℕ × ℕ)
  rejection : Option ConfigRejection
  apply : Option ApplyReport
  bootDiagnostic : Option (DiagnosticCode × ValidationCode)
  deriving DecidableEq, Repr

/-- The fields that apply to a boot and a transfer; indexes are saturated. -/
def shown (boot : BootStatus) (transfer : TransferStatus) : ConfigStatusView where
  state := transfer.state
  result := transfer.result
  flags := boot.flags
  source := boot.active.source
  activeLength := boot.active.length
  activeCrc32 := boot.active.crc32.toNat
  lengths :=
    if transfer.state = .receiving then some (transfer.transferLength, transfer.receivedLength)
    else none
  saved :=
    if transfer.result = .saved then some (transfer.saved.length, transfer.saved.crc32.toNat)
    else none
  rejection :=
    if transfer.result = .configRejected then
      some { transfer.rejection with index := saturatedIndex transfer.rejection.index }
    else none
  apply :=
    if transfer.result = .applyRejected then
      some ⟨transfer.apply.stage, transfer.apply.validation, transfer.apply.section,
        saturatedIndex transfer.apply.index, transfer.apply.binding, transfer.apply.engine⟩
    else none
  bootDiagnostic :=
    if boot.flags.invalidOverride then some (boot.overrideCode, boot.overrideValidation) else none

/-! ### The bytes of the fields -/

def zeros (n : ℕ) : List UInt8 := List.replicate n 0

namespace ConfigStatusView

variable (view : ConfigStatusView)

def bootBytes : List UInt8 :=
  [view.flags.bits] ++ [code view.source] ++ u16 view.activeLength ++ u32 view.activeCrc32

def lengthsBytes : List UInt8 :=
  view.lengths.elim (zeros 4) fun lengths => u16 lengths.1 ++ u16 lengths.2

def savedBytes : List UInt8 :=
  view.saved.elim (zeros 6) fun saved => u16 saved.1 ++ u32 saved.2

def rejectionBytes : List UInt8 :=
  view.rejection.elim (zeros 5) fun rejection =>
    [code rejection.category] ++ [code rejection.code] ++ [code rejection.validation] ++
      u16 rejection.index

def applyBytes : List UInt8 :=
  view.apply.elim (zeros 7) fun apply =>
    [code apply.stage] ++ [code apply.validation] ++ [code apply.section] ++ u16 apply.index ++
      [code apply.binding] ++ [code apply.engine]

def bootDiagnosticBytes : List UInt8 :=
  view.bootDiagnostic.elim (zeros 2) fun diagnostic => [code diagnostic.1] ++ [code diagnostic.2]

/-- The path that is emitted. -/
def path : DiagnosticPath := view.rejection.elim {} ConfigRejection.path

/-- The length of the path, with the truncation in the highest bit. -/
def pathInfo : UInt8 :=
  if view.path.truncated then UInt8.ofNat view.path.text.length ||| kPathTruncatedBit
  else UInt8.ofNat view.path.text.length

/-- The layout of a value. -/
def bytes : List UInt8 :=
  [code view.state] ++ ([code view.result] ++ (view.bootBytes ++ (view.lengthsBytes ++
    (view.savedBytes ++ (view.rejectionBytes ++ (view.applyBytes ++ (view.bootDiagnosticBytes ++
      ([view.pathInfo] ++ view.path.text))))))))

end ConfigStatusView

variable (view : ConfigStatusView) (boot : BootStatus)

/-- The sections have one length each, whether their fields apply or not. -/
theorem length_sections :
    view.bootBytes.length = 8 ∧ view.lengthsBytes.length = 4 ∧ view.savedBytes.length = 6 ∧
      view.rejectionBytes.length = 5 ∧ view.applyBytes.length = 7 ∧
      view.bootDiagnosticBytes.length = 2 := by
  refine ⟨rfl, ?_, ?_, ?_, ?_, ?_⟩
  · unfold ConfigStatusView.lengthsBytes
    cases view.lengths <;> rfl
  · unfold ConfigStatusView.savedBytes
    cases view.saved <;> rfl
  · unfold ConfigStatusView.rejectionBytes
    cases view.rejection <;> rfl
  · unfold ConfigStatusView.applyBytes
    cases view.apply <;> rfl
  · unfold ConfigStatusView.bootDiagnosticBytes
    cases view.bootDiagnostic <;> rfl

theorem length_bytes : view.bytes.length = kConfigStatusFixedBytes + view.path.text.length := by
  obtain ⟨boot, lengths, saved, rejection, apply, diagnostic⟩ := length_sections view
  simp only [ConfigStatusView.bytes, List.length_append, List.length_singleton, boot, lengths,
    saved, rejection, apply, diagnostic, kConfigStatusFixedBytes]
  omega

/-! ### The writers -/

/-- A writer appends some bytes to every value that has room for them. -/
def Appends (write : EncodedConfigStatus → EncodedConfigStatus) (bytes : List UInt8) : Prop :=
  ∀ value : EncodedConfigStatus, value.bytes.length + bytes.length ≤ kMaxConfigStatusBytes →
    (write value).bytes = value.bytes ++ bytes

theorem appends_write (bytes : List UInt8) : Appends (·.write bytes) bytes := by
  intro value fits
  obtain ⟨value', appended, result⟩ := BoundedBytes.append_eq_some fits
  change (EncodedConfigStatus.write value bytes).bytes = _
  rw [EncodedConfigStatus.write, appended]
  exact result

/-- Writers in sequence append what they append in sequence. -/
theorem Appends.comp {first second : EncodedConfigStatus → EncodedConfigStatus}
    {bytes bytes' : List UInt8} (left : Appends first bytes) (right : Appends second bytes') :
    Appends (fun value => second (first value)) (bytes ++ bytes') := by
  intro value fits
  rw [List.length_append] at fits
  have written := left value (by omega)
  rw [right (first value) (by rw [written, List.length_append]; omega), written,
    List.append_assoc]

theorem appends_pushZeros (n : ℕ) : Appends (·.pushZeros n) (zeros n) := by
  induction n with
  | zero =>
    intro value _
    exact (List.append_nil _).symm
  | succ n ih => exact (appends_write [0]).comp ih

/-- A section has its fields, if they apply, or zeros. -/
theorem appends_optional {T : Type} {applies : Prop} [Decidable applies] {n : ℕ} {fields : T}
    {write : EncodedConfigStatus → EncodedConfigStatus} {bytes : T → List UInt8}
    (written : Appends write (bytes fields)) :
    Appends (fun value => if ¬ applies then value.pushZeros n else write value)
      ((if applies then some fields else none).elim (zeros n) bytes) := by
  by_cases h : applies
  · simp only [h, not_true_eq_false, if_false, if_true]
    exact written
  · simp only [h, not_false_eq_true, if_false, if_true]
    exact appends_pushZeros n

section Writers

variable (boot : BootStatus) (transfer : TransferStatus)

theorem appends_pushBoot : Appends (pushBoot · boot) (shown boot transfer).bootBytes :=
  (((appends_write _).comp (appends_write _)).comp (appends_write _)).comp (appends_write _)

theorem appends_pushLengths :
    Appends (pushLengths · transfer) (shown boot transfer).lengthsBytes :=
  appends_optional ((appends_write _).comp (appends_write _))

theorem appends_pushSaved : Appends (pushSaved · transfer) (shown boot transfer).savedBytes :=
  appends_optional ((appends_write _).comp (appends_write _))

theorem appends_pushRejection :
    Appends (pushRejection · transfer) (shown boot transfer).rejectionBytes :=
  appends_optional <| (((appends_write _).comp (appends_write _)).comp (appends_write _)).comp
    (appends_write _)

theorem appends_pushApply : Appends (pushApply · transfer) (shown boot transfer).applyBytes := by
  have written := (((((appends_write [code transfer.apply.stage]).comp
    (appends_write [code transfer.apply.validation])).comp
    (appends_write [code transfer.apply.section])).comp
    (appends_write (u16 (saturatedIndex transfer.apply.index)))).comp
    (appends_write [code transfer.apply.binding])).comp
    (appends_write [code transfer.apply.engine])
  exact appends_optional written

theorem appends_pushBootDiagnostic :
    Appends (pushBootDiagnostic · boot) (shown boot transfer).bootDiagnosticBytes := by
  unfold pushBootDiagnostic ConfigStatusView.bootDiagnosticBytes shown
  by_cases applies : boot.flags.invalidOverride = true
  · simp only [applies, Bool.not_true, Bool.false_eq_true, if_false, if_true]
    exact (appends_write _).comp (appends_write _)
  · rw [Bool.not_eq_true] at applies
    simp only [applies, Bool.not_false, Bool.false_eq_true, if_false, if_true]
    exact appends_pushZeros 2

theorem appends_pushPath : Appends (pushPath · transfer)
    ([(shown boot transfer).pathInfo] ++ (shown boot transfer).path.text) := by
  unfold pushPath ConfigStatusView.pathInfo ConfigStatusView.path shown
  by_cases applies : transfer.result = .configRejected
  · simp only [applies, ne_eq, not_true_eq_false, if_false, if_true]
    exact (appends_write _).comp (appends_write _)
  · simp only [applies, ne_eq, not_false_eq_true, if_false, if_true]
    exact appends_write [0]

/-- **The bytes of a value** are those of the fields that apply. -/
theorem bytes_encodeConfigStatus (fits : transfer.rejection.path.text.length ≤
    kMaxDiagnosticPathBytes) :
    (encodeConfigStatus boot transfer).bytes = (shown boot transfer).bytes := by
  have written := (appends_write [code transfer.state]).comp <|
    (appends_write [code transfer.result]).comp <|
    (appends_pushBoot boot transfer).comp <| (appends_pushLengths boot transfer).comp <|
    (appends_pushSaved boot transfer).comp <| (appends_pushRejection boot transfer).comp <|
    (appends_pushApply boot transfer).comp <| (appends_pushBootDiagnostic boot transfer).comp <|
    appends_pushPath boot transfer
  refine written .empty ?_
  have length := length_bytes (shown boot transfer)
  have path : (shown boot transfer).path.text.length ≤ kMaxDiagnosticPathBytes := by
    unfold ConfigStatusView.path shown
    by_cases applies : transfer.result = .configRejected
    · simpa [applies] using fits
    · simp [applies]
  change 0 + (shown boot transfer).bytes.length ≤ _
  rw [length, kMaxConfigStatusBytes]
  omega

end Writers

/-! ### The reader of the layout -/

/-- A byte that is the code of a value. -/
def coded {α : Type} [WireCode α] : Reader α := do
  let b ← byte
  StateT.lift (fromCode b)

def BootFlags.ofBits (bits : UInt8) : BootFlags :=
  ⟨bits &&& 0x01 != 0, bits &&& 0x02 != 0, bits &&& 0x04 != 0, bits &&& 0x08 != 0⟩

def readBoot : Reader (BootFlags × ConfigSource × ℕ × ℕ) := do
  let bits ← byte
  let source ← coded
  let length ← word
  let crc32 ← dword
  pure (.ofBits bits, source, length, crc32)

def readLengths : Reader (ℕ × ℕ) := do
  let transferLength ← word
  let receivedLength ← word
  pure (transferLength, receivedLength)

def readSaved : Reader (ℕ × ℕ) := do
  let length ← word
  let crc32 ← dword
  pure (length, crc32)

/-- The diagnostic of a rejection, whose path comes at the end of the value. -/
def readRejection : Reader ConfigRejection := do
  let category ← coded
  let code ← coded
  let validation ← coded
  let index ← word
  pure { category, code, validation, index }

def readApply : Reader ApplyReport := do
  let stage ← coded
  let validation ← coded
  let «section» ← coded
  let index ← word
  let binding ← coded
  let engine ← coded
  pure ⟨stage, validation, «section», index, binding, engine⟩

def readBootDiagnostic : Reader (DiagnosticCode × ValidationCode) := do
  let code ← coded
  let validation ← coded
  pure (code, validation)

/-- The path: seven bits of length, one of truncation, and the text. -/
def readPath : Reader DiagnosticPath := do
  let info ← byte
  let text ← take (info &&& 0x7f).toNat
  pure ⟨text, info &&& 0x80 != 0⟩

/-- **The reader of the documented layout**, which keeps the fields that apply. -/
def readConfigStatus : Reader ConfigStatusView := do
  let state ← coded
  let result ← coded
  let boot ← readBoot
  let lengths ← readLengths
  let saved ← readSaved
  let rejection ← readRejection
  let apply ← readApply
  let bootDiagnostic ← readBootDiagnostic
  let path ← readPath
  pure {
    state, result
    flags := boot.1
    source := boot.2.1
    activeLength := boot.2.2.1
    activeCrc32 := boot.2.2.2
    lengths := if state = .receiving then some lengths else none
    saved := if result = .saved then some saved else none
    rejection := if result = .configRejected then some { rejection with path } else none
    apply := if result = .applyRejected then some apply else none
    bootDiagnostic := if boot.1.invalidOverride then some bootDiagnostic else none }

theorem reads_coded {α : Type} [WireCode α] (a : α) : Reads coded [code a] a := by
  have read : Reads coded ([code a] ++ []) a :=
    (reads_byte (code a)).bind (reads_lift (fromCode_code a))
  rwa [List.append_nil] at read

theorem ofBits_bits (flags : BootFlags) : BootFlags.ofBits flags.bits = flags := by
  obtain ⟨invalid, failed, missing, lighting⟩ := flags
  cases invalid <;> cases failed <;> cases missing <;> cases lighting <;> rfl

/-- The widths of the fields of a transfer status, and the construction of its path. -/
structure TransferStatus.Sized (transfer : TransferStatus) : Prop where
  transferLength : transfer.transferLength < 2 ^ 16
  receivedLength : transfer.receivedLength < 2 ^ 16
  savedLength : transfer.saved.length < 2 ^ 16
  path : ∃ text, transfer.rejection.path = .of text

theorem saturatedIndex_lt (index : ℕ) : saturatedIndex index < 2 ^ 16 := by
  unfold saturatedIndex
  split_ifs <;> omega

theorem length_of_le (text : ByteView) :
    (DiagnosticPath.of text).text.length ≤ kMaxDiagnosticPathBytes := by
  unfold DiagnosticPath.of
  split_ifs with long
  · rw [List.length_take]
    exact Nat.le_trans (Nat.min_le_left _ _) (backUp_le _ _)
  · exact Nat.le_of_not_lt long

section Reading

variable {transfer : TransferStatus}

theorem reads_boot (transfer : TransferStatus) :
    Reads readBoot (shown boot transfer).bootBytes
      (boot.flags, boot.active.source, boot.active.length, boot.active.crc32.toNat) := by
  have length : boot.active.length < 2 ^ 16 := Nat.mod_lt _ (by decide)
  have read : Reads readBoot ([boot.flags.bits] ++ ([code boot.active.source] ++
      (u16 boot.active.length ++ u32 boot.active.crc32.toNat)))
      (.ofBits boot.flags.bits, boot.active.source, boot.active.length,
        boot.active.crc32.toNat) :=
    (reads_byte boot.flags.bits).bind <| (reads_coded boot.active.source).bind <|
      (reads_word length).bind (reads_dword boot.active.crc32.toNat_lt).map
  rw [ofBits_bits] at read
  exact read

/-- A section without fields reads as blank fields, which are not kept. -/
theorem reads_optional {T : Type} {reader : Reader T} {applies : Prop} [Decidable applies] {n : ℕ}
    {fields blank : T} {bytes : T → List UInt8} (read : Reads reader (bytes fields) fields)
    (unread : Reads reader (zeros n) blank) :
    Reads reader ((if applies then some fields else none).elim (zeros n) bytes)
      ((if applies then some fields else none).getD blank) := by
  by_cases h : applies
  · rw [if_pos h]
    exact read
  · rw [if_neg h]
    exact unread

theorem reads_lengths (sized : transfer.Sized) : Reads readLengths
    (shown boot transfer).lengthsBytes ((shown boot transfer).lengths.getD (0, 0)) := by
  have read : ∀ {first second : ℕ}, first < 2 ^ 16 → second < 2 ^ 16 →
      Reads readLengths (u16 first ++ u16 second) (first, second) :=
    fun h h' => (reads_word h).bind (reads_word h').map
  exact reads_optional (read sized.transferLength sized.receivedLength)
    (read (by decide) (by decide))

theorem reads_saved (sized : transfer.Sized) : Reads readSaved
    (shown boot transfer).savedBytes ((shown boot transfer).saved.getD (0, 0)) := by
  have read : ∀ {first second : ℕ}, first < 2 ^ 16 → second < 2 ^ 32 →
      Reads readSaved (u16 first ++ u32 second) (first, second) :=
    fun h h' => (reads_word h).bind (reads_dword h').map
  exact reads_optional (read sized.savedLength transfer.saved.crc32.toNat_lt)
    (read (by decide) (by decide))

/-- The diagnostic that the section of a value carries. -/
def rejectionOf (view : ConfigStatusView) : ConfigRejection :=
  { view.rejection.getD {} with path := {} }

theorem reads_rejection (transfer : TransferStatus) : Reads readRejection
    (shown boot transfer).rejectionBytes (rejectionOf (shown boot transfer)) := by
  have read : ∀ (category : DiagnosticCategory) (reason : DiagnosticCode)
      (validation : ValidationCode) {index : ℕ}, index < 2 ^ 16 →
      Reads readRejection ([code category] ++ ([code reason] ++ ([code validation] ++ u16 index)))
        { category, code := reason, validation, index } :=
    fun category reason validation _ h => (reads_coded category).bind <| (reads_coded reason).bind <|
      (reads_coded validation).bind (reads_word h).map
  unfold ConfigStatusView.rejectionBytes rejectionOf shown
  by_cases applies : transfer.result = .configRejected
  · simp only [applies, if_true, Option.elim_some, Option.getD_some, List.append_assoc]
    exact read _ _ _ (saturatedIndex_lt _)
  · simp only [applies, if_false, Option.elim_none, Option.getD_none]
    exact read .none .none .none (by decide)

/-- The report of a section without fields. -/
def blankReport : ApplyReport := ⟨.complete, .none, .document, 0, .ok, .ok⟩

theorem reads_apply (transfer : TransferStatus) : Reads readApply
    (shown boot transfer).applyBytes ((shown boot transfer).apply.getD blankReport) := by
  have read : ∀ report : ApplyReport, report.index < 2 ^ 16 → Reads readApply
      ([code report.stage] ++ ([code report.validation] ++ ([code report.section] ++
        (u16 report.index ++ ([code report.binding] ++ [code report.engine]))))) report :=
    fun report h => (reads_coded report.stage).bind <| (reads_coded report.validation).bind <|
      (reads_coded report.section).bind <| (reads_word h).bind <|
      (reads_coded report.binding).bind (reads_coded report.engine).map
  unfold ConfigStatusView.applyBytes
  simp only [List.append_assoc]
  exact reads_optional (read _ (saturatedIndex_lt _)) (read blankReport (by decide))

theorem reads_bootDiagnostic (transfer : TransferStatus) :
    Reads readBootDiagnostic (shown boot transfer).bootDiagnosticBytes
      ((shown boot transfer).bootDiagnostic.getD (.none, .none)) := by
  have read : ∀ (reason : DiagnosticCode) (validation : ValidationCode),
      Reads readBootDiagnostic ([code reason] ++ [code validation]) (reason, validation) :=
    fun reason validation => (reads_coded reason).bind (reads_coded validation).map
  exact reads_optional (read _ _) (read .none .none)

/-- A length of at most 26 bytes leaves the highest bit to the truncation. -/
theorem pathInfo_bits : ∀ n < 27,
    (UInt8.ofNat n &&& 0x7f).toNat = n ∧ (UInt8.ofNat n &&& 0x80 != 0) = false ∧
      ((UInt8.ofNat n ||| kPathTruncatedBit) &&& 0x7f).toNat = n ∧
      ((UInt8.ofNat n ||| kPathTruncatedBit) &&& 0x80 != 0) = true := by
  decide

theorem reads_path {view : ConfigStatusView}
    (fits : view.path.text.length ≤ kMaxDiagnosticPathBytes) :
    Reads readPath ([view.pathInfo] ++ view.path.text) view.path := by
  obtain ⟨plain, unset, marked, set⟩ :=
    pathInfo_bits view.path.text.length (Nat.lt_succ_of_le fits)
  have length : (view.pathInfo &&& 0x7f).toNat = view.path.text.length := by
    unfold ConfigStatusView.pathInfo
    split_ifs <;> assumption
  have truncated : (view.pathInfo &&& 0x80 != 0) = view.path.truncated := by
    unfold ConfigStatusView.pathInfo
    split_ifs with cut
    · rw [set, cut]
    · rw [unset, (Bool.not_eq_true _).mp cut]
  have text : Reads (take (view.pathInfo &&& 0x7f).toNat) view.path.text view.path.text := by
    rw [length]
    exact reads_take view.path.text
  have read : Reads readPath ([view.pathInfo] ++ view.path.text)
      ⟨view.path.text, view.pathInfo &&& 0x80 != 0⟩ :=
    (reads_byte view.pathInfo).bind text.map
  rwa [truncated] at read

theorem length_path_le (sized : transfer.Sized) :
    transfer.rejection.path.text.length ≤ kMaxDiagnosticPathBytes := by
  obtain ⟨text, path⟩ := sized.path
  rw [path]
  exact length_of_le text

theorem length_shown_path_le (sized : transfer.Sized) :
    (shown boot transfer).path.text.length ≤ kMaxDiagnosticPathBytes := by
  unfold ConfigStatusView.path shown
  by_cases applies : transfer.result = .configRejected
  · simpa [applies] using length_path_le sized
  · simp [applies]

/-- The reader reads the fields that apply off their bytes. -/
theorem reads_configStatus (sized : transfer.Sized) :
    Reads readConfigStatus (shown boot transfer).bytes (shown boot transfer) := by
  have kept : (⟨transfer.state, transfer.result, boot.flags, boot.active.source,
      boot.active.length, boot.active.crc32.toNat,
      if transfer.state = .receiving then
        some ((shown boot transfer).lengths.getD (0, 0)) else none,
      if transfer.result = .saved then
        some ((shown boot transfer).saved.getD (0, 0)) else none,
      if transfer.result = .configRejected then
        some { rejectionOf (shown boot transfer) with path := (shown boot transfer).path }
        else none,
      if transfer.result = .applyRejected then
        some ((shown boot transfer).apply.getD blankReport) else none,
      if boot.flags.invalidOverride then
        some ((shown boot transfer).bootDiagnostic.getD (.none, .none)) else none⟩ :
      ConfigStatusView) = shown boot transfer := by
    -- A section is kept exactly when its fields apply, and then it is not blank.
    unfold shown rejectionOf ConfigStatusView.path
    congr 1
    all_goals split_ifs <;> rfl
  refine Reads.congr ?_ kept
  exact (reads_coded transfer.state).bind <| (reads_coded transfer.result).bind <|
    (reads_boot boot transfer).bind <| (reads_lengths boot sized).bind <|
    (reads_saved boot sized).bind <| (reads_rejection boot transfer).bind <|
    (reads_apply boot transfer).bind <| (reads_bootDiagnostic boot transfer).bind <|
    (reads_path (length_shown_path_le boot sized)).map

end Reading

/-! ### The sections that do not apply -/

theorem slice_append
    {pre segment post : List UInt8} {start length : ℕ} (before : pre.length = start)
    (within : segment.length = length) :
    ((pre ++ (segment ++ post)).drop start).take length = segment := by
  rw [← before, ← within, List.drop_left, List.take_left]

/-- **Every section stands at its own offset**, whatever the fields before it are. -/
theorem sections_at :
    (view.bytes.drop 10).take 4 = view.lengthsBytes ∧
      (view.bytes.drop 14).take 6 = view.savedBytes ∧
      (view.bytes.drop 20).take 5 = view.rejectionBytes ∧
      (view.bytes.drop 25).take 7 = view.applyBytes ∧
      (view.bytes.drop 32).take 2 = view.bootDiagnosticBytes ∧
      view.bytes.drop 34 = [view.pathInfo] ++ view.path.text := by
  obtain ⟨boot, lengths, saved, rejection, apply, diagnostic⟩ := length_sections view
  unfold ConfigStatusView.bytes
  -- The bytes before a section are collected into one list of known length.
  rw [← List.append_assoc, ← List.append_assoc]
  refine ⟨slice_append ?_ lengths, ?_⟩
  · simp [boot]
  rw [← List.append_assoc]
  refine ⟨slice_append ?_ saved, ?_⟩
  · simp [boot, lengths]
  rw [← List.append_assoc]
  refine ⟨slice_append ?_ rejection, ?_⟩
  · simp [boot, lengths, saved]
  rw [← List.append_assoc]
  refine ⟨slice_append ?_ apply, ?_⟩
  · simp [boot, lengths, saved, rejection]
  rw [← List.append_assoc]
  refine ⟨slice_append ?_ diagnostic, ?_⟩
  · simp [boot, lengths, saved, rejection, apply]
  rw [← List.append_assoc]
  refine List.drop_left' ?_
  simp [boot, lengths, saved, rejection, apply, diagnostic]

/-- The sections of a value whose fields do not apply are zero. -/
structure InapplicableZero (boot : BootStatus) (transfer : TransferStatus)
    (bytes : List UInt8) : Prop where
  lengths : transfer.state ≠ .receiving → (bytes.drop 10).take 4 = zeros 4
  saved : transfer.result ≠ .saved → (bytes.drop 14).take 6 = zeros 6
  rejection : transfer.result ≠ .configRejected →
    (bytes.drop 20).take 5 = zeros 5 ∧ bytes.drop 34 = [0]
  apply : transfer.result ≠ .applyRejected → (bytes.drop 25).take 7 = zeros 7
  bootDiagnostic : boot.flags.invalidOverride = false → (bytes.drop 32).take 2 = zeros 2

theorem inapplicableZero_shown (transfer : TransferStatus) :
    InapplicableZero boot transfer (shown boot transfer).bytes := by
  obtain ⟨lengths, saved, rejection, apply, diagnostic, path⟩ :=
    sections_at (shown boot transfer)
  constructor
  · intro state
    rw [lengths, ConfigStatusView.lengthsBytes, shown, if_neg state]
    rfl
  · intro result
    rw [saved, ConfigStatusView.savedBytes, shown, if_neg result]
    rfl
  · intro result
    constructor
    · rw [rejection, ConfigStatusView.rejectionBytes, shown, if_neg result]
      rfl
    · rw [path, ConfigStatusView.pathInfo, ConfigStatusView.path, shown, if_neg result]
      rfl
  · intro result
    rw [apply, ConfigStatusView.applyBytes, shown, if_neg result]
    rfl
  · intro flag
    rw [diagnostic, ConfigStatusView.bootDiagnosticBytes, shown, flag]
    rfl

/-! ### The path that is kept -/

/-- The longest path that fits and ends on a character boundary. -/
structure DiagnosticPath.LongestPrefix (path : DiagnosticPath) (chars : List Char) : Prop where
  boundary : ∃ k, path.text = encode (chars.take k)
  fits : path.text.length ≤ kMaxDiagnosticPathBytes
  longest : ∀ k, (encode (chars.take k)).length ≤ kMaxDiagnosticPathBytes →
    (encode (chars.take k)).length ≤ path.text.length
  truncated : path.truncated = true ↔ path.text ≠ encode chars

/-- **The path kept of a text** is its longest prefix of whole characters that fits. -/
theorem diagnosticPath_of (chars : List Char) :
    (DiagnosticPath.of (encode chars)).LongestPrefix chars := by
  have fits := length_of_le (encode chars)
  unfold DiagnosticPath.of at fits ⊢
  split_ifs at fits ⊢ with long
  · obtain ⟨⟨k, cut⟩, greatest⟩ := backUp_greatest long
    have short := backUp_le (encode chars) kMaxDiagnosticPathBytes
    have kept : ((encode chars).take
        (backUp (encode chars) kMaxDiagnosticPathBytes)).length =
        backUp (encode chars) kMaxDiagnosticPathBytes :=
      List.length_take_of_le (by omega)
    refine ⟨⟨k, ?_⟩, fits, ?_, iff_of_true rfl ?_⟩
    · rw [cut]
      exact take_encode chars k
    · intro k' fits'
      rw [kept]
      exact greatest _ ⟨k', rfl⟩ fits'
    · intro whole
      have := congrArg List.length whole
      omega
  · refine ⟨⟨chars.length, ?_⟩, fits, ?_, iff_of_false Bool.false_ne_true (not_not.mpr rfl)⟩
    · rw [List.take_length]
    · intro k _
      exact length_encode_take_le chars k

/-! ### Reading a value -/

/-- **Reading a status value** by the documented layout gives back the fields that apply. The value
has 35 bytes and the path; a section that does not apply is zero; nothing but the fields that apply
has an influence; and the path is the longest prefix of whole characters that fits. -/
theorem config_status_read (boot : BootStatus) (transfer : TransferStatus)
    (sized : transfer.Sized) :
    (encodeConfigStatus boot transfer).bytes.length =
        kConfigStatusFixedBytes + (shown boot transfer).path.text.length ∧
      (encodeConfigStatus boot transfer).bytes.length ≤ kMaxConfigStatusBytes ∧
      whole readConfigStatus (encodeConfigStatus boot transfer).bytes =
        some (shown boot transfer) ∧
      InapplicableZero boot transfer (encodeConfigStatus boot transfer).bytes ∧
      (∀ (boot' : BootStatus) (transfer' : TransferStatus), transfer'.Sized →
        shown boot' transfer' = shown boot transfer →
        (encodeConfigStatus boot' transfer').bytes = (encodeConfigStatus boot transfer).bytes) ∧
      ∀ chars : List Char, transfer.result = .configRejected →
        transfer.rejection.path = .of (encode chars) →
        (shown boot transfer).path.LongestPrefix chars := by
  have bytes := bytes_encodeConfigStatus boot transfer (length_path_le sized)
  have path := length_shown_path_le boot sized
  rw [bytes]
  refine ⟨length_bytes _, ?_, whole_of_reads (reads_configStatus boot sized),
    inapplicableZero_shown boot transfer, ?_, ?_⟩
  · rw [length_bytes, kMaxConfigStatusBytes]
    omega
  · intro boot' transfer' sized' same
    rw [bytes_encodeConfigStatus boot' transfer' (length_path_le sized'), same]
  · intro chars rejected built
    rw [ConfigStatusView.path, shown, if_pos rejected, Option.elim_some, built]
    exact diagnosticPath_of chars

/-- A rejection during a new upload: the index is too large, and the limit falls inside the last
character of the path. -/
def longRejection : TransferStatus where
  state := .receiving
  result := .configRejected
  transferLength := 300
  receivedLength := 180
  saved := ⟨77, 5⟩
  rejection := ⟨.semantic, .schemaValidation, .invalidDuration, 70000,
    .of (encode (List.replicate 25 'a' ++ ['é']))⟩
  apply := { stage := .rule, index := 3 }

theorem config_status_read_long :
    (encodeConfigStatus {} longRejection).bytes.length = 60 ∧
      (whole readConfigStatus (encodeConfigStatus {} longRejection).bytes).map
        (fun view => (view.lengths, view.saved, view.rejection.map ConfigRejection.index)) =
        some (some (300, 180), none, some 0xFFFF) ∧
      (shown {} longRejection).path = ⟨List.replicate 25 97, true⟩ := by
  have sized : longRejection.Sized :=
    ⟨by decide, by decide, by decide, ⟨encode (List.replicate 25 'a' ++ ['é']), rfl⟩⟩
  obtain ⟨length, -, read, -⟩ := config_status_read {} longRejection sized
  refine ⟨?_, ?_, by decide +kernel⟩
  · rw [length]
    decide +kernel
  · rw [read]
    decide +kernel

end AccessoryController.CompanionProtocol
