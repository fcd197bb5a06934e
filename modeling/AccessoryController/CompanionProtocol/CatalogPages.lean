import AccessoryController.CompanionProtocol.CatalogExport
import AccessoryController.Library.Wire

/-!
# The pages of a catalogue

An export stands for one document. Its size computation, the writer of its pages and the grammar
of its readers are three traversals of the entries; each is compared to the document's bytes.

## Main definitions

* `Descriptor`, `DescribedChoice`: what a document says of a signal
* `decodeDocument`: the reader
* `described metadata index`: what a document should say of an entry
* `document entries`: the bytes of a document
* `PageSink.Holds`: a sink holds the window of the bytes written so far
* `SignalCatalogExport.Serves`: the pages of an export are the windows of a document

## Main results

* `length_descriptorDocument`: the computed size is the number of bytes
* `appendDocument_eq`: the writer writes the document
* `decodeDocument_document`: the grammar reads the entries off the document
* `catalog_export_pages`: every page is a window of one document, which describes the catalogue
-/

namespace AccessoryController.CompanionProtocol

open VehicleSignals Wire SignalCatalogExport

/-! ### The catalogue document grammar

The reader of a catalogue document as the wire specification describes it. It rejects a malformed
document as a whole: truncated lengths, invalid strings, invalid mandatory fields, duplicates,
and everything over the published bounds. Unknown tags are skipped, and unknown types are kept
as opaque descriptors. -/

structure DescribedChoice where
  handle : ℕ
  key : List UInt8
  deriving DecidableEq, Repr

structure Descriptor where
  handle : ℕ
  key : List UInt8
  typeCode : UInt8
  unit : List UInt8
  evidence : List UInt8
  choices : List DescribedChoice
  deriving DecidableEq, Repr

/-- A metadata field: tag, length and value. -/
def readTlv : Reader (UInt8 × List UInt8) := do
  let tag ← byte
  let length ← word
  let value ← take length
  pure (tag, value)

def readChoice : Reader DescribedChoice := do
  let handle ← word
  let length ← byte
  let key ← take length.toNat
  pure ⟨handle, key⟩

/-- The choices of an enumeration, without their check. -/
def readChoiceList : Reader (List DescribedChoice) := do
  let count ← word
  many readChoice count

/-- Handles are nonzero, handles and keys are distinct, and keys are strings of the wire. -/
def choicesAcceptable (choices : List DescribedChoice) : Prop :=
  choices ≠ [] ∧ choices.length ≤ kMaxSignalCatalogChoices ∧
    (∀ choice ∈ choices, choice.handle ≠ 0 ∧
      validWireString choice.key kMaxSignalCatalogKeyBytes = true) ∧
    (choices.map DescribedChoice.handle).Nodup ∧ (choices.map DescribedChoice.key).Nodup

instance (choices : List DescribedChoice) : Decidable (choicesAcceptable choices) := by
  unfold choicesAcceptable
  infer_instance

/-- The value of the choices field. -/
def decodeChoices (value : List UInt8) : Option (List DescribedChoice) :=
  (whole readChoiceList value).filter fun choices => choicesAcceptable choices

/-- The value of a field. -/
def fieldOf (tag : UInt8) (fields : List (UInt8 × List UInt8)) : Option (List UInt8) :=
  (fields.find? fun field => field.1 == tag).map Prod.snd

/-- The choices that a descriptor of a type carries: an enumeration must have them, a Boolean or
a number must not, and an unknown type is opaque. -/
def decodeTypedChoices (typeCode : UInt8) (field : Option (List UInt8)) :
    Option (List DescribedChoice) :=
  if wireTypeCode .enum = some typeCode then field.bind decodeChoices
  else if wireTypeCode .boolean = some typeCode ∨ wireTypeCode .number = some typeCode then
    if field.isSome then none else some []
  else some []

/-- The descriptor that a handle and its fields describe. -/
def decodeFields (handle : ℕ) (fields : List (UInt8 × List UInt8)) : Option Descriptor :=
  if ¬ (fields.map Prod.fst).Nodup then none
  else
    match fieldOf 1 fields, fieldOf 2 fields, fieldOf 3 fields, fieldOf 4 fields with
    | some key, some [typeCode], some unit, some evidence =>
      if handle = 0 ∨ !validWireString key kMaxSignalCatalogKeyBytes ∨
          !validWireString unit kMaxSignalCatalogTokenBytes ∨
          !validWireString evidence kMaxSignalCatalogTokenBytes then none
      else (decodeTypedChoices typeCode (fieldOf 5 fields)).map fun choices =>
        { handle, key, typeCode, unit, evidence, choices }
    | _, _, _, _ => none

/-- The body of a descriptor. -/
def decodeBody (body : List UInt8) : Option Descriptor :=
  match word body with
  | none => none
  | some (handle, rest) => (Wire.all readTlv rest).bind (decodeFields handle)

def readDescriptor : Reader Descriptor := do
  let length ← word
  let body ← take length
  StateT.lift (decodeBody body)

/-- A document without the checks across its descriptors: the format and the descriptors. -/
def readDocument : Reader (UInt8 × List Descriptor) := do
  let format ← byte
  let count ← word
  let descriptors ← many readDescriptor count
  pure (format, descriptors)

/-- The format is known, the descriptors are within their bound, and handles and keys are
distinct. -/
def documentAcceptable (document : UInt8 × List Descriptor) : Prop :=
  document.1 = kSignalCatalogFormat ∧ document.2.length ≤ kMaxSignalCatalogSignals ∧
    (document.2.map Descriptor.handle).Nodup ∧ (document.2.map Descriptor.key).Nodup

instance (document : UInt8 × List Descriptor) : Decidable (documentAcceptable document) := by
  unfold documentAcceptable
  infer_instance

/-- **The reader of a catalogue document.** -/
def decodeDocument (bytes : List UInt8) : Option (List Descriptor) :=
  if kMaxSignalCatalogDocumentBytes < bytes.length then none
  else ((whole readDocument bytes).filter fun document => documentAcceptable document).map Prod.snd

/-! ### What a document should say -/

/-- The choices of an entry, with handles from one. -/
def describedChoices (choices : List SignalEnumChoice) : List DescribedChoice :=
  choices.zipIdx.map fun choice => ⟨choice.2 + 1, choice.1.key⟩

/-- The description of the entry at an index, with handles from one. -/
def described (entry : SignalMetadata × ℕ) : Descriptor where
  handle := entry.2 + 1
  key := entry.1.key
  typeCode := CompanionProtocol.typeCode entry.1.type
  unit := unitToken entry.1.unit
  evidence := evidenceToken entry.1.validation
  choices := if entry.1.type = .enum then describedChoices entry.1.choices else []

/-! ### The bytes of a document -/

open LittleEndian

def tlvDocument (field : UInt8 × List UInt8) : List UInt8 :=
  field.1 :: (u16 field.2.length ++ field.2)

def choiceDocument (choice : SignalEnumChoice × ℕ) : List UInt8 :=
  u16 (choice.2 + 1) ++ (UInt8.ofNat choice.1.key.length :: choice.1.key)

def choicesDocument (choices : List SignalEnumChoice) : List UInt8 :=
  u16 choices.length ++ choices.zipIdx.flatMap choiceDocument

/-- The fields of a descriptor in the order of their tags. -/
def fieldsOf (metadata : SignalMetadata) : List (UInt8 × List UInt8) :=
  [(1, metadata.key), (2, [typeCode metadata.type]), (3, unitToken metadata.unit),
    (4, evidenceToken metadata.validation)] ++
    if metadata.type = .enum then [(5, choicesDocument metadata.choices)] else []

def bodyDocument (entry : SignalMetadata × ℕ) : List UInt8 :=
  u16 (entry.2 + 1) ++ (fieldsOf entry.1).flatMap tlvDocument

def descriptorDocument (entry : SignalMetadata × ℕ) : List UInt8 :=
  u16 (bodyDocument entry).length ++ bodyDocument entry

/-- The document of the exported entries. -/
def document (entries : List SignalMetadata) : List UInt8 :=
  kSignalCatalogFormat :: (u16 entries.length ++ entries.zipIdx.flatMap descriptorDocument)

/-! ### The computed size -/

theorem length_choicesDocument (choices : List SignalEnumChoice) (start size : ℕ) :
    choices.foldl (fun size choice => size + (2 + 1 + choice.key.length)) size =
      size + ((choices.zipIdx start).flatMap choiceDocument).length := by
  induction choices generalizing start size with
  | nil => rfl
  | cons choice choices ih =>
    rw [List.foldl_cons, ih (start + 1), List.zipIdx_cons, List.flatMap_cons, List.length_append]
    simp only [choiceDocument, List.length_append, length_u16, List.length_cons]
    omega

theorem choicesValueBytes_eq (metadata : SignalMetadata) :
    choicesValueBytes metadata = (choicesDocument metadata.choices).length := by
  rw [choicesValueBytes, length_choicesDocument metadata.choices 0, choicesDocument,
    List.length_append, length_u16]

theorem length_tlvDocument (field : UInt8 × List UInt8) :
    (tlvDocument field).length = tlvBytes field.2.length := by
  simp only [tlvDocument, List.length_cons, List.length_append, length_u16, tlvBytes,
    kTlvHeaderBytes]
  omega

/-- The computed size of a body is the number of its bytes. -/
theorem descriptorBodyBytes_eq (entry : SignalMetadata × ℕ) :
    descriptorBodyBytes entry.1 = (bodyDocument entry).length := by
  unfold descriptorBodyBytes bodyDocument fieldsOf
  rw [choicesValueBytes_eq]
  split <;>
    simp only [List.flatMap_append, List.flatMap_cons, List.flatMap_nil, List.length_append,
      length_tlvDocument, length_u16, List.length_cons, List.length_nil, kSignalHandleBytes,
      tlvBytes, kTlvHeaderBytes] <;> omega

theorem length_descriptorDocument (entry : SignalMetadata × ℕ) :
    (descriptorDocument entry).length = kDescriptorLengthBytes + descriptorBodyBytes entry.1 := by
  rw [descriptorDocument, List.length_append, length_u16, descriptorBodyBytes_eq entry]
  rfl

/-- An entry of a catalogue that an export carries: it can be read, and the wire has a code for
its type. -/
def supported (metadata : SignalMetadata) : Bool :=
  metadata.capabilities.has .read && (wireTypeCode metadata.type).isSome

/-- An entry that was exported is within the bounds of the wire. -/
structure Exported (metadata : SignalMetadata) : Prop where
  coded : (wireTypeCode metadata.type).isSome = true
  wire : wireEntry metadata = true
  body : descriptorBodyBytes metadata < 2 ^ 16

/-- **What the export collects**: the supported entries, each within the bounds, and the size
of the document so far. -/
theorem exportEntries_spec (catalog : SignalCatalogView) {entries entries' : List SignalMetadata}
    {size size' : ℕ} (h : exportEntries catalog entries size = some (entries', size'))
    (few : entries.length ≤ kMaxSignalCatalogSignals)
    (small : size ≤ kMaxSignalCatalogDocumentBytes)
    (exported : ∀ metadata ∈ entries, Exported metadata) :
    entries' = entries ++ catalog.filter supported ∧
      entries'.length ≤ kMaxSignalCatalogSignals ∧ size' ≤ kMaxSignalCatalogDocumentBytes ∧
      (∀ metadata ∈ entries', Exported metadata) ∧
      size' + (entries.zipIdx.flatMap descriptorDocument).length =
        size + (entries'.zipIdx.flatMap descriptorDocument).length := by
  induction catalog generalizing entries size with
  | nil =>
    obtain ⟨rfl, rfl⟩ := Prod.mk.inj (Option.some.inj h)
    exact ⟨(List.append_nil _).symm, few, small, exported, rfl⟩
  | cons metadata catalog ih =>
    unfold exportEntries at h
    by_cases hsupported : supported metadata = true
    · obtain ⟨hread, hcoded⟩ := Bool.and_eq_true_iff.mp hsupported
      rw [if_neg (by simp [hread]), if_neg (by simp [Option.isNone_iff_eq_none,
        Option.isSome_iff_ne_none.mp hcoded])] at h
      split at h
      · cases h
      rename_i hwire
      split at h
      · cases h
      rename_i hbody
      dsimp only at h
      split at h
      · cases h
      rename_i hsize
      simp only [not_or, Nat.not_le, Bool.not_eq_true', Bool.not_eq_false] at hwire
      have hone : Exported metadata := ⟨hcoded, hwire.2, by omega⟩
      have hall : ∀ m ∈ entries ++ [metadata], Exported m := by
        intro m hm
        rcases List.mem_append.mp hm with hm | hm
        · exact exported m hm
        · rw [List.mem_singleton.mp hm]
          exact hone
      obtain ⟨hentries, hfew, hsmall, hexported, hlength⟩ := ih h
        (by rw [List.length_append]; exact hwire.1) (by omega) hall
      refine ⟨?_, hfew, hsmall, hexported, ?_⟩
      · rw [hentries, List.append_assoc, List.filter_cons_of_pos hsupported]
        rfl
      · rw [List.zipIdx_append, List.flatMap_append, List.length_append] at hlength
        simp only [List.zipIdx_cons, List.zipIdx_nil, List.flatMap_cons, List.flatMap_nil,
          List.append_nil, length_descriptorDocument] at hlength
        omega
    · have skipped : exportEntries catalog entries size = some (entries', size') := by
        by_cases hread : metadata.capabilities.has .read = true
        · have uncoded : (wireTypeCode metadata.type).isNone = true := by
            simpa [supported, hread] using hsupported
          rwa [if_neg (by simp [hread]), if_pos uncoded] at h
        · rwa [if_pos (by simpa using hread)] at h
      obtain ⟨hentries, hrest⟩ := ih skipped few small exported
      exact ⟨by rw [hentries, List.filter_cons_of_neg hsupported], hrest⟩

variable {catalog : SignalCatalogView} {metadata : SignalMetadata} {entry : SignalMetadata × ℕ}
  (sink : PageSink)

/-- What an available export consists of. -/
theorem create_spec (available : (create catalog).available = true) :
    catalog.wellFormed ∧
      (create catalog).entries =
        catalog.filter supported ∧
      (create catalog).entries.length ≤ kMaxSignalCatalogSignals ∧
      (∀ metadata ∈ (create catalog).entries, Exported metadata) ∧
      (create catalog).documentLength =
        (document (create catalog).entries).length ∧
      (create catalog).documentLength ≤ kMaxSignalCatalogDocumentBytes := by
  unfold create at available ⊢
  by_cases hwell : catalog.wellFormed
  · rw [if_neg (not_not.mpr hwell)] at available ⊢
    cases hexport : exportEntries catalog [] kCatalogDocumentHeaderBytes with
    | none =>
      rw [hexport] at available
      cases available
    | some result =>
      obtain ⟨entries, size⟩ := result
      obtain ⟨hentries, hfew, hsmall, hexported, hlength⟩ := exportEntries_spec catalog hexport
        (Nat.zero_le _) (by decide) (fun _ h => absurd h List.not_mem_nil)
      have hmod : size % 2 ^ 16 = size :=
        Nat.mod_eq_of_lt (Nat.lt_of_le_of_lt hsmall (by decide))
      refine ⟨hwell, by simpa using hentries, hfew, hexported, ?_, ?_⟩
      · dsimp only
        rw [hmod, document, List.length_cons, List.length_append, length_u16]
        simp only [List.zipIdx_nil, List.flatMap_nil, List.length_nil, Nat.add_zero,
          kCatalogDocumentHeaderBytes] at hlength
        omega
      · dsimp only
        rw [hmod]
        exact hsmall
  · rw [if_pos hwell] at available
    cases available

/-- An export has at most sixty-four signals. -/
theorem signalCount_create_le (view : SignalCatalogView) :
    (create view).signalCount ≤ kMaxSignalCatalogSignals := by
  unfold signalCount
  split
  · rename_i available
    exact (create_spec available).2.2.1
  · exact Nat.zero_le _

/-! ### The writer of a page -/

namespace PageSink

theorem append_append (text text' : List UInt8) :
    sink.append (text ++ text') = (sink.append text).append text' := List.foldl_append

theorem append_push (text : List UInt8) (byte : UInt8) :
    (sink.append text).push byte = sink.append (text ++ [byte]) := by
  rw [append_append]
  rfl

theorem append_pushU16 (text : List UInt8) (n : ℕ) :
    (sink.append text).pushU16 n = sink.append (text ++ u16 n) := by
  rw [append_append]
  rfl

theorem append_appendTlv (text : List UInt8) (tag : UInt8) (value : List UInt8) :
    (sink.append text).appendTlv tag value = sink.append (text ++ tlvDocument (tag, value)) := by
  rw [append_append]
  rfl

/-- A loop of writers writes the bytes of its rounds in order. -/
theorem foldl_append {X : Type} {f : PageSink → X → PageSink} {bytes : X → List UInt8} (l : List X)
    (h : ∀ sink, ∀ x ∈ l, f sink x = sink.append (bytes x)) (sink : PageSink) :
    l.foldl f sink = sink.append (l.flatMap bytes) := by
  induction l generalizing sink with
  | nil => rfl
  | cons x l ih =>
    rw [List.foldl_cons, h sink x List.mem_cons_self, List.flatMap_cons, append_append]
    exact ih (fun sink y hy => h sink y (List.mem_cons_of_mem x hy)) _

theorem appendChoice_eq (choice : SignalEnumChoice × ℕ) :
    sink.appendChoice choice = sink.append (choiceDocument choice) := rfl

/-- A descriptor is written as its bytes. -/
theorem appendDescriptor_eq (entry : SignalMetadata × ℕ) :
    sink.appendDescriptor entry = sink.append (descriptorDocument entry) := by
  have start : sink = sink.append [] := rfl
  have typeField : ∀ text, (((sink.append text).push 2).pushU16 1).push
      (typeCode entry.1.type) =
        sink.append (text ++ tlvDocument (2, [typeCode entry.1.type])) := by
    intro text
    rw [append_append]
    rfl
  have choicesField : ∀ text, entry.1.choices.zipIdx.foldl appendChoice
      ((((sink.append text).push 5).pushU16 (choicesValueBytes entry.1)).pushU16
        entry.1.choices.length) =
        sink.append (text ++ tlvDocument (5, choicesDocument entry.1.choices)) := by
    intro text
    rw [foldl_append _ (fun sink choice _ => appendChoice_eq sink choice), append_push,
      append_pushU16, append_pushU16, ← append_append, tlvDocument, choicesDocument,
      choicesValueBytes_eq, choicesDocument]
    simp only [List.append_assoc, List.cons_append, List.nil_append]
  rw [appendDescriptor, descriptorDocument, ← descriptorBodyBytes_eq entry, start]
  simp only [append_pushU16, append_appendTlv, typeField, choicesField, ← append_append]
  by_cases henum : entry.1.type = .enum
  · simp only [if_pos henum, bodyDocument, fieldsOf, List.flatMap_append, List.flatMap_cons,
      List.flatMap_nil, List.append_nil, List.nil_append, List.append_assoc]
  · simp only [if_neg henum, bodyDocument, fieldsOf, List.flatMap_cons, List.flatMap_nil,
      List.append_nil, List.nil_append, List.append_assoc]

/-- **The writer of a page** writes the document. -/
theorem appendDocument_eq (entries : List SignalMetadata) :
    sink.appendDocument entries = sink.append (document entries) := by
  have start : (sink.push kSignalCatalogFormat).pushU16 entries.length =
      sink.append (kSignalCatalogFormat :: u16 entries.length) := rfl
  rw [appendDocument, foldl_append _ (fun sink entry _ => appendDescriptor_eq sink entry), start,
    ← append_append]
  rfl

/-- The sink holds a header and the window of the bytes written so far. -/
structure Holds (sink : PageSink) (header written : List UInt8) : Prop where
  cursor : sink.cursor = written.length
  ok : sink.ok = true
  page : sink.page.bytes = header ++ (written.take sink.last).drop sink.first
  room : header.length + (sink.last - sink.first) ≤ kMaxSignalCatalogPageBytes

/-- One byte moves the cursor, and enters the page inside the window. -/
theorem Holds.push {sink : PageSink} {header written : List UInt8}
    (holds : sink.Holds header written) (byte : UInt8) :
    (sink.push byte).Holds header (written ++ [byte]) ∧ (sink.push byte).first = sink.first ∧
      (sink.push byte).last = sink.last := by
  obtain ⟨hcursor, hok, hpage, hroom⟩ := holds
  have hlength : (written ++ [byte]).length = written.length + 1 := by simp
  unfold PageSink.push
  split
  · rename_i inside
    rw [hcursor] at inside
    -- everything written is before the end of the window
    have hwritten : written.take sink.last = written :=
      List.take_of_length_le (Nat.le_of_lt inside.2)
    have hextended : (written ++ [byte]).take sink.last = written ++ [byte] :=
      List.take_of_length_le (by omega)
    have hdrop : (written ++ [byte]).drop sink.first = written.drop sink.first ++ [byte] :=
      List.drop_append_of_le_length inside.1
    have fits : sink.page.bytes.length + [byte].length ≤ kMaxSignalCatalogPageBytes := by
      rw [hpage, hwritten, List.length_append, List.length_drop, List.length_singleton]
      omega
    obtain ⟨page, hpush, hbytes⟩ := BoundedBytes.append_eq_some fits
    have hpush : sink.page.push byte = some page := hpush
    rw [hpush]
    refine ⟨⟨by simp [hcursor], hok, ?_, hroom⟩, rfl, rfl⟩
    show page.bytes = header ++ ((written ++ [byte]).take sink.last).drop sink.first
    rw [hbytes, hpage, hwritten, hextended, hdrop, List.append_assoc]
  · rename_i outside
    rw [hcursor] at outside
    refine ⟨⟨by simp [hcursor], hok, ?_, hroom⟩, rfl, rfl⟩
    show sink.page.bytes = header ++ ((written ++ [byte]).take sink.last).drop sink.first
    rw [hpage]
    by_cases hfirst : sink.first ≤ written.length
    · have hlast : sink.last ≤ written.length := by omega
      rw [List.take_append_of_le_length hlast]
    · -- the window has not begun
      rw [List.drop_eq_nil_of_le (by rw [List.length_take]; omega),
        List.drop_eq_nil_of_le (by rw [List.length_take]; omega)]

theorem Holds.append {sink : PageSink} {header written : List UInt8}
    (holds : sink.Holds header written) (text : List UInt8) :
    (sink.append text).Holds header (written ++ text) ∧ (sink.append text).first = sink.first ∧
      (sink.append text).last = sink.last := by
  induction text generalizing sink written with
  | nil =>
    rw [List.append_nil]
    exact ⟨holds, rfl, rfl⟩
  | cons byte text ih =>
    obtain ⟨pushed, hfirst, hlast⟩ := holds.push byte
    obtain ⟨appended, hfirst', hlast'⟩ := ih pushed
    rw [List.append_assoc] at appended
    exact ⟨appended, hfirst'.trans hfirst, hlast'.trans hlast⟩

end PageSink

/-! ### The reader of a document -/

/-- The strings that an exported entry puts on the wire. -/
theorem Exported.strings (exported : Exported metadata) :
    validWireString metadata.key kMaxSignalCatalogKeyBytes = true ∧
      validWireString (unitToken metadata.unit) kMaxSignalCatalogTokenBytes = true ∧
      validWireString (evidenceToken metadata.validation) kMaxSignalCatalogTokenBytes = true ∧
      (metadata.type = .enum → metadata.choices ≠ [] ∧
        metadata.choices.length ≤ kMaxSignalCatalogChoices ∧
        ∀ choice ∈ metadata.choices,
          validWireString choice.key kMaxSignalCatalogKeyBytes = true) := by
  have wire := exported.wire
  unfold wireEntry at wire
  simp only [Bool.and_eq_true, Bool.or_eq_true, bne_iff_ne, Bool.not_eq_true',
    List.isEmpty_eq_false_iff, decide_eq_true_eq, List.all_eq_true] at wire
  obtain ⟨⟨⟨hkey, hunit⟩, hevidence⟩, hchoices⟩ := wire
  refine ⟨hkey, hunit, hevidence, fun henum => ?_⟩
  rcases hchoices with hother | ⟨⟨hnonempty, hfew⟩, hkeys⟩
  · exact absurd henum hother
  · exact ⟨hnonempty, hfew, hkeys⟩

theorem length_of_validWireString {text : List UInt8} {maximumBytes : ℕ}
    (h : validWireString text maximumBytes = true) : text.length ≤ maximumBytes := by
  simp only [validWireString, Bool.and_eq_true, decide_eq_true_eq] at h
  exact h.1.2

theorem reads_readTlv {field : UInt8 × List UInt8} (short : field.2.length < 2 ^ 16) :
    Reads readTlv (tlvDocument field) field := by
  have fields := (reads_byte field.1).bind (f := fun tag => (do
      let length ← word
      let value ← take length
      pure (tag, value) : Reader (UInt8 × List UInt8)))
    ((reads_word short).bind (reads_take field.2).map)
  exact fields

theorem reads_readChoice {choice : SignalEnumChoice × ℕ} (handle : choice.2 + 1 < 2 ^ 16)
    (short : choice.1.key.length ≤ kMaxSignalCatalogKeyBytes) :
    Reads readChoice (choiceDocument choice) ⟨choice.2 + 1, choice.1.key⟩ := by
  have length : (UInt8.ofNat choice.1.key.length).toNat = choice.1.key.length := by
    rw [UInt8.toNat_ofNat']
    exact Nat.mod_eq_of_lt (Nat.lt_of_le_of_lt short (by decide))
  have key : Reads (take (UInt8.ofNat choice.1.key.length).toNat) choice.1.key choice.1.key := by
    rw [length]
    exact reads_take choice.1.key
  exact (reads_word handle).bind ((reads_byte _).bind key.map)

theorem mem_zipIdx_lt {X : Type} {l : List X} {x : X × ℕ} (h : x ∈ l.zipIdx) :
    x.1 ∈ l ∧ x.2 < l.length := by
  obtain ⟨hlt, hget⟩ := List.mem_zipIdx' h
  exact ⟨by rw [hget]; exact List.getElem_mem hlt, hlt⟩

/-- Positions are distinct. -/
theorem nodup_zipIdx_succ {X : Type} (l : List X) :
    (l.zipIdx.map fun x => x.2 + 1).Nodup := by
  have hmap : l.zipIdx.map (fun x => x.2 + 1) = (l.zipIdx.map Prod.snd).map (· + 1) := by
    rw [List.map_map]
    rfl
  rw [hmap, List.zipIdx_map_snd]
  exact List.pairwise_map.mpr ((List.nodup_range' ..).imp fun hne heq => hne (Nat.succ.inj heq))

theorem map_zipIdx_fst {X Y : Type} (l : List X) (f : X → Y) :
    l.zipIdx.map (fun x => f x.1) = l.map f := by
  have hmap : l.zipIdx.map (fun x => f x.1) = (l.zipIdx.map Prod.fst).map f := by
    rw [List.map_map]
    rfl
  rw [hmap, List.zipIdx_map_fst]

/-- The choices field of an exported enumeration decodes to its choices. -/
theorem decodeChoices_choicesDocument (exported : Exported metadata)
    (wellFormed : SignalCatalogView.choicesWellFormed metadata) (henum : metadata.type = .enum) :
    decodeChoices (choicesDocument metadata.choices) = some (describedChoices metadata.choices) := by
  obtain ⟨-, -, -, hchoices⟩ := exported.strings
  obtain ⟨hnonempty, hfew, hkeys⟩ := hchoices henum
  rw [SignalCatalogView.choicesWellFormed, if_neg (not_not.mpr henum)] at wellFormed
  obtain ⟨-, -, hdistinct⟩ := wellFormed
  have hcount : metadata.choices.length < 2 ^ 16 := Nat.lt_of_le_of_lt hfew (by decide)
  have hlength : metadata.choices.length = metadata.choices.zipIdx.length :=
    List.length_zipIdx.symm
  have reads : Reads readChoiceList (choicesDocument metadata.choices)
      (describedChoices metadata.choices) := by
    refine (reads_word hcount).bind ?_
    rw [hlength]
    refine reads_many _ fun choice hchoice => ?_
    obtain ⟨hmem, hlt⟩ := mem_zipIdx_lt hchoice
    exact reads_readChoice (by omega) (length_of_validWireString (hkeys _ hmem))
  have acceptable : choicesAcceptable (describedChoices metadata.choices) := by
    have hhandles : (describedChoices metadata.choices).map DescribedChoice.handle =
        metadata.choices.zipIdx.map fun choice => choice.2 + 1 := List.map_map
    have hnames : (describedChoices metadata.choices).map DescribedChoice.key =
        metadata.choices.map SignalEnumChoice.key := by
      rw [describedChoices, List.map_map]
      exact map_zipIdx_fst metadata.choices SignalEnumChoice.key
    refine ⟨?_, ?_, ?_, ?_, ?_⟩
    · simpa [describedChoices] using hnonempty
    · simpa [describedChoices] using hfew
    · intro described hdescribed
      obtain ⟨choice, hchoice, rfl⟩ := List.mem_map.mp hdescribed
      exact ⟨Nat.succ_ne_zero _, hkeys _ (mem_zipIdx_lt hchoice).1⟩
    · rw [hhandles]
      exact nodup_zipIdx_succ _
    · rw [hnames]
      exact List.pairwise_map.mpr (hdistinct.imp fun h => h.2.symm)
  rw [decodeChoices, whole_of_reads reads, Option.filter_some, if_pos (decide_eq_true acceptable)]

/-- The typed choices of an exported entry. -/
theorem decodeTypedChoices_fieldsOf (exported : Exported metadata)
    (wellFormed : SignalCatalogView.choicesWellFormed metadata) :
    decodeTypedChoices (typeCode metadata.type) (fieldOf 5 (fieldsOf metadata)) =
      some (if metadata.type = .enum then describedChoices metadata.choices else []) := by
  by_cases henum : metadata.type = .enum
  · have hfield : fieldOf 5 (fieldsOf metadata) = some (choicesDocument metadata.choices) := by
      rw [fieldOf, fieldsOf, if_pos henum]
      rfl
    have hcode : wireTypeCode .enum = some (typeCode metadata.type) := by
      rw [henum]
      rfl
    rw [decodeTypedChoices, hfield, if_pos hcode, Option.bind_some, if_pos henum]
    exact decodeChoices_choicesDocument exported wellFormed henum
  · have hfield : fieldOf 5 (fieldsOf metadata) = none := by
      rw [fieldOf, fieldsOf, if_neg henum]
      rfl
    rw [decodeTypedChoices, hfield, if_neg henum]
    cases htype : metadata.type with
    | boolean => rfl
    | number => rfl
    | enum => exact absurd htype henum
    | unknown beyond =>
      have hcoded := exported.coded
      rw [htype] at hcoded
      cases hcoded

/-- The fields of an exported entry decode to its description. -/
theorem decodeFields_fieldsOf (exported : Exported entry.1)
    (wellFormed : SignalCatalogView.choicesWellFormed entry.1) :
    decodeFields (entry.2 + 1) (fieldsOf entry.1) = some (described entry) := by
  obtain ⟨hkey, hunit, hevidence, -⟩ := exported.strings
  have tags : ((fieldsOf entry.1).map Prod.fst).Nodup := by
    unfold fieldsOf
    split <;> simp
  have field₁ : fieldOf 1 (fieldsOf entry.1) = some entry.1.key := rfl
  have field₂ : fieldOf 2 (fieldsOf entry.1) = some [typeCode entry.1.type] := rfl
  have field₃ : fieldOf 3 (fieldsOf entry.1) = some (unitToken entry.1.unit) := rfl
  have field₄ : fieldOf 4 (fieldsOf entry.1) = some (evidenceToken entry.1.validation) := rfl
  rw [decodeFields, if_neg (not_not.mpr tags), field₁, field₂, field₃, field₄]
  show (if _ then none else _) = _
  rw [if_neg (by simp [hkey, hunit, hevidence]),
    decodeTypedChoices_fieldsOf exported wellFormed]
  rfl

/-- Every field of an exported entry is shorter than the length of its body. -/
theorem length_field_lt (exported : Exported entry.1) {field : UInt8 × List UInt8}
    (hfield : field ∈ fieldsOf entry.1) : field.2.length < 2 ^ 16 := by
  have body := exported.body
  rw [descriptorBodyBytes_eq entry] at body
  refine Nat.lt_of_le_of_lt ?_ body
  have inside : (tlvDocument field).length ≤ ((fieldsOf entry.1).flatMap tlvDocument).length := by
    obtain ⟨before, after, hsplit⟩ := List.append_of_mem hfield
    rw [hsplit, List.flatMap_append, List.flatMap_cons, List.length_append, List.length_append]
    omega
  rw [length_tlvDocument] at inside
  rw [bodyDocument, List.length_append]
  unfold tlvBytes at inside
  omega

/-- A descriptor is read off its bytes. -/
theorem reads_readDescriptor (exported : Exported entry.1)
    (wellFormed : SignalCatalogView.choicesWellFormed entry.1) (handle : entry.2 + 1 < 2 ^ 16) :
    Reads readDescriptor (descriptorDocument entry) (described entry) := by
  have body : decodeBody (bodyDocument entry) = some (described entry) := by
    have fields : Wire.all readTlv ((fieldsOf entry.1).flatMap tlvDocument) =
        some ((fieldsOf entry.1).map id) := by
      refine all_of_reads _ fun field hfield => ⟨?_, List.cons_ne_nil _ _⟩
      exact reads_readTlv (length_field_lt exported hfield)
    rw [decodeBody, bodyDocument, reads_word handle]
    show (Wire.all readTlv _).bind _ = _
    rw [fields, List.map_id, Option.bind_some]
    exact decodeFields_fieldsOf exported wellFormed
  have length : (bodyDocument entry).length < 2 ^ 16 := by
    rw [← descriptorBodyBytes_eq entry]
    exact exported.body
  have read := (reads_take (bodyDocument entry)).bind
    (f := fun body => StateT.lift (decodeBody body)) (reads_lift body)
  rw [List.append_nil] at read
  exact (reads_word length).bind read

/-- **The reader of a document** reads the exported entries off it, in order. -/
theorem decodeDocument_document {entries : List SignalMetadata} (wellFormed : catalog.wellFormed)
    (sub : entries.Sublist catalog) (few : entries.length ≤ kMaxSignalCatalogSignals)
    (exported : ∀ metadata ∈ entries, Exported metadata)
    (small : (document entries).length ≤ kMaxSignalCatalogDocumentBytes) :
    decodeDocument (document entries) = some (entries.zipIdx.map described) := by
  obtain ⟨hentries, hdistinct⟩ := wellFormed
  have hcount : entries.length < 2 ^ 16 := Nat.lt_of_le_of_lt few (by decide)
  have hlength : entries.length = entries.zipIdx.length := List.length_zipIdx.symm
  have descriptors : Reads (many readDescriptor entries.length)
      (entries.zipIdx.flatMap descriptorDocument) (entries.zipIdx.map described) := by
    rw [hlength]
    refine reads_many _ fun entry hentry => ?_
    obtain ⟨hmem, hlt⟩ := mem_zipIdx_lt hentry
    exact reads_readDescriptor (exported _ hmem)
      (hentries _ (sub.subset hmem)).2.2.2.2 (by omega)
  have reads : Reads readDocument (document entries)
      (kSignalCatalogFormat, entries.zipIdx.map described) :=
    (reads_byte kSignalCatalogFormat).bind ((reads_word hcount).bind descriptors.map)
  have acceptable : documentAcceptable (kSignalCatalogFormat, entries.zipIdx.map described) := by
    have hhandles : (entries.zipIdx.map described).map Descriptor.handle =
        entries.zipIdx.map fun entry => entry.2 + 1 := List.map_map
    have hkeys : (entries.zipIdx.map described).map Descriptor.key =
        entries.map SignalMetadata.key := by
      rw [List.map_map]
      exact map_zipIdx_fst entries SignalMetadata.key
    refine ⟨rfl, by simpa using few, ?_, ?_⟩
    · show ((entries.zipIdx.map described).map Descriptor.handle).Nodup
      rw [hhandles]
      exact nodup_zipIdx_succ _
    · show ((entries.zipIdx.map described).map Descriptor.key).Nodup
      rw [hkeys]
      exact List.pairwise_map.mpr ((hdistinct.sublist sub).imp fun h => h.2.symm)
  rw [decodeDocument, if_neg (Nat.not_lt.mpr small), whole_of_reads reads, Option.filter_some,
    if_pos (decide_eq_true acceptable)]
  rfl

/-! ### Pages -/

/-- The header of a page fits. -/
theorem pageHeader_eq (e : SignalCatalogExport) (token offset dataLength : ℕ) :
    ∃ page, e.pageHeader token offset dataLength = some page ∧
      page.bytes = kSignalCatalogFormat ::
        (u32 token ++ u16 e.documentLength ++ u16 offset ++ u16 dataLength) := by
  exact ⟨_, rfl, rfl⟩

namespace SignalCatalogExport

/-- An export serves the pages of a document of the announced length: for every nonzero token and
every offset up to the length the encoder succeeds, and its page is the header and the next bytes
of the document from the offset, up to two hundred. -/
def Serves (e : SignalCatalogExport) (bytes : List UInt8) : Prop :=
  bytes.length = e.documentLength ∧
    ∀ token offset, token ≠ 0 → offset ≤ bytes.length →
      ∃ page, e.encodePage token offset = some page ∧
        page.bytes = kSignalCatalogFormat ::
          (u32 token ++ u16 bytes.length ++ u16 offset ++
            u16 (min (bytes.length - offset) kSignalCatalogPageDataBytes)) ++
          (bytes.drop offset).take kSignalCatalogPageDataBytes

theorem serves_create (available : (create catalog).available = true) :
    (create catalog).Serves (document (create catalog).entries) := by
  obtain ⟨-, -, -, exported, hlength, -⟩ := create_spec available
  generalize create catalog = e at *
  refine ⟨hlength.symm, fun token offset htoken hoffset => ?_⟩
  rw [← hlength] at hoffset
  set dataLength := min (e.documentLength - offset) kSignalCatalogPageDataBytes with hdata
  have hwindow : (if e.documentLength - offset < kSignalCatalogPageDataBytes then
      e.documentLength - offset else kSignalCatalogPageDataBytes) = dataLength := by
    rw [hdata]
    split <;> omega
  obtain ⟨page, hpage, hbytes⟩ := pageHeader_eq e token offset dataLength
  have hheader : page.bytes.length = kSignalCatalogPageHeaderBytes := by
    rw [hbytes]
    rfl
  have start : ({ page, first := offset, last := offset + dataLength } : PageSink).Holds
      page.bytes [] := by
    refine ⟨rfl, rfl, by simp, ?_⟩
    show page.bytes.length + (offset + dataLength - offset) ≤ kMaxSignalCatalogPageBytes
    rw [hheader, Nat.add_sub_cancel_left]
    exact Nat.add_le_add_left (Nat.min_le_right _ _) _
  obtain ⟨holds, hfirst, hlast⟩ := start.append (document e.entries)
  rw [List.nil_append, ← PageSink.appendDocument_eq] at holds
  rw [← PageSink.appendDocument_eq] at hfirst hlast
  have hdocument : ((document e.entries).take (offset + dataLength)).drop offset =
      ((document e.entries).drop offset).take kSignalCatalogPageDataBytes := by
    rw [List.drop_take, Nat.add_sub_cancel_left, List.take_eq_take_iff, List.length_drop,
      ← hlength, hdata]
    omega
  have hsize : (((document e.entries).drop offset).take kSignalCatalogPageDataBytes).length =
      dataLength := by
    rw [List.length_take, List.length_drop, ← hlength, Nat.min_comm]
  obtain ⟨hcursor, hok, hfinal, -⟩ := holds
  rw [hfirst, hlast, hdocument] at hfinal
  refine ⟨_, ?_, hfinal.trans ?_⟩
  · have hopen : ¬ (!e.available ∨ token = 0 ∨ e.documentLength < offset) := by
      simp [available, htoken, Nat.not_lt.mpr hoffset]
    have hcoded : ¬ (e.entries.any fun metadata => (wireTypeCode metadata.type).isNone) := by
      simp only [List.any_eq_true, Option.isNone_iff_eq_none, not_exists, not_and]
      exact fun metadata hmem => Option.isSome_iff_ne_none.mp (exported metadata hmem).coded
    rw [encodePage, if_neg hopen]
    dsimp only
    rw [hwindow, hpage]
    dsimp only
    rw [if_neg hcoded, if_neg]
    rintro (hnok | hcount | hshort)
    · rw [hok] at hnok
      cases hnok
    · exact hcount (hcursor.trans hlength.symm)
    · refine hshort ?_
      rw [hfinal, List.length_append, hheader, hsize]
  · rw [hbytes, ← hlength, List.cons_append]

/-- The pages determine the document. -/
theorem Serves.unique {e : SignalCatalogExport} {bytes bytes' : List UInt8}
    (serves : e.Serves bytes) (serves' : e.Serves bytes') : bytes = bytes' := by
  have length : bytes'.length = bytes.length := serves'.1.trans serves.1.symm
  refine List.ext_getElem? fun i => ?_
  rcases Nat.lt_or_ge bytes.length i with outside | inside
  · rw [List.getElem?_eq_none (Nat.le_of_lt outside),
      List.getElem?_eq_none (length ▸ Nat.le_of_lt outside)]
  · -- the byte at an offset is the first one of the page from there
    obtain ⟨page, hpage, hbytes⟩ := serves.2 1 i Nat.one_ne_zero inside
    obtain ⟨page', hpage', hbytes'⟩ := serves'.2 1 i Nat.one_ne_zero (length ▸ inside)
    obtain rfl := Option.some.inj (hpage.symm.trans hpage')
    rw [hbytes, length] at hbytes'
    have window := congrArg (·[0]?) (List.append_cancel_left hbytes')
    simpa [List.getElem?_take, kSignalCatalogPageDataBytes] using window

end SignalCatalogExport

/-- **The pages of a catalogue export.** For every catalogue whose export is available there is one
document whose pages it serves, and it decodes by the wire grammar to the Read-capable entries of
the catalogue whose type the wire supports, in order, with handles from one, each with its key,
type, unit, evidence and choices, the choices with handles from one in order. -/
theorem catalog_export_pages (catalog : SignalCatalogView)
    (available : (create catalog).available = true) :
    ∃! bytes : List UInt8, (create catalog).Serves bytes ∧
      decodeDocument bytes = some ((catalog.filter supported).zipIdx.map described) := by
  have serves := serves_create available
  obtain ⟨wellFormed, hentries, few, exported, hlength, small⟩ := create_spec available
  have decodes := decodeDocument_document wellFormed (hentries ▸ List.filter_sublist) few exported
    (hlength ▸ small)
  exact ⟨_, ⟨serves, hentries ▸ decodes⟩, fun _ other => other.1.unique serves⟩

/-- A gear selector with two choices, a value in an unnamed unit, a reading of an unnamed type and
a lamp that only notifies. -/
def gearCatalog : SignalCatalogView :=
  [{ id := ⟨1⟩, key := ascii "gear", type := .enum, capabilities := { read := true },
     choices := [⟨2, ascii "park"⟩, ⟨7, ascii "drive"⟩] },
   { id := ⟨2⟩, key := ascii "unit", type := .number, unit := .unknown 250,
     capabilities := { read := true } },
   { id := ⟨3⟩, key := ascii "type", type := .unknown 251, capabilities := { read := true } },
   { id := ⟨4⟩, key := ascii "lamp", capabilities := { notify := true } }]

/-- Its document has a last page that is empty. -/
theorem catalog_export_pages_gear :
    (create gearCatalog).available = true ∧
    ∃ bytes : List UInt8,
      decodeDocument bytes = some [described (gearCatalog[0], 0), described (gearCatalog[1], 1)] ∧
      ∃ page, (create gearCatalog).encodePage 1 bytes.length = some page ∧
        page.bytes.length = kSignalCatalogPageHeaderBytes := by
  have available : (create gearCatalog).available = true := by decide
  refine ⟨available, ?_⟩
  obtain ⟨bytes, ⟨serves, decodes⟩, -⟩ := catalog_export_pages gearCatalog available
  refine ⟨bytes, decodes, ?_⟩
  obtain ⟨page, hpage, hbytes⟩ := serves.2 1 bytes.length (by decide) (Nat.le_refl _)
  refine ⟨page, hpage, ?_⟩
  rw [hbytes, List.drop_length]
  rfl

/-- The document of the gear selector does not describe every entry that can be read: the export
passes over the one of an unnamed type. -/
theorem unnamed_type_not_exported :
    gearCatalog.wellFormed ∧ (create gearCatalog).available = true ∧
    ¬ ∃ bytes, (create gearCatalog).Serves bytes ∧
      decodeDocument bytes =
        some ((gearCatalog.filter fun metadata => metadata.capabilities.has .read).zipIdx.map
          described) := by
  have available : (create gearCatalog).available = true := by decide
  obtain ⟨wellFormed, hentries, few, exported, hlength, small⟩ := create_spec available
  refine ⟨wellFormed, available, ?_⟩
  rintro ⟨bytes, serves, decodes⟩
  rw [serves.unique (serves_create available),
    decodeDocument_document wellFormed (hentries ▸ List.filter_sublist) few exported
      (hlength ▸ small)] at decodes
  have counted := congrArg List.length (Option.some.inj decodes)
  rw [List.length_map, List.length_zipIdx, hentries] at counted
  exact absurd counted (by decide)

end AccessoryController.CompanionProtocol
