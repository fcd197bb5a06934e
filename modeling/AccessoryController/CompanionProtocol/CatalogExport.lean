import AccessoryController.CompanionProtocol.Bytes
import AccessoryController.VehicleSignals.Catalog

/-!
# The signal catalogue export

The Read-capable entries of a catalogue as a document, served in pages. The size of the document
is computed when the export is made; a page is encoded by writing the whole document through a
sink that keeps the bytes of its window.

## Main definitions

* `validUtf8`, `validWireString`: the strings of the wire
* `SignalCatalogExport.create`: the export of a catalogue
* `PageSink`: the sink of a page
* `SignalCatalogExport.encodePage`: a page of the document
* `SignalCatalogExport.metadataForHandle`, `wireChoiceHandle`: the handles of the wire
-/

namespace AccessoryController.CompanionProtocol

open LittleEndian VehicleCore VehicleSignals

def kSignalCatalogFormat : UInt8 := 1

def kMaxSignalCatalogSignals : ℕ := 64

def kMaxSignalCatalogChoices : ℕ := 32

def kMaxSignalCatalogKeyBytes : ℕ := 63

def kMaxSignalCatalogTokenBytes : ℕ := 31

def kMaxSignalCatalogDocumentBytes : ℕ := 16 * 1024

def kSignalCatalogPageHeaderBytes : ℕ := 11

def kSignalCatalogPageDataBytes : ℕ := 200

def kMaxSignalCatalogPageBytes : ℕ := kSignalCatalogPageHeaderBytes + kSignalCatalogPageDataBytes

abbrev EncodedSignalCatalogPage := BoundedBytes kMaxSignalCatalogPageBytes

def kCatalogDocumentHeaderBytes : ℕ := 3

def kDescriptorLengthBytes : ℕ := 2

def kSignalHandleBytes : ℕ := 2

def kTlvHeaderBytes : ℕ := 3

/-! ### The strings of the wire -/

/-- The bytes of an ASCII text. -/
def ascii (text : String) : List UInt8 := text.toList.map fun c => UInt8.ofNat c.toNat

def unitToken : SignalUnit → List UInt8
  | .none => ascii "none"
  | .kilometresPerHour => ascii "km/h"
  | .revolutionsPerMinute => ascii "rpm"
  | .metresPerSecondSquared => ascii "m/s^2"
  | .unknown _ => ascii "unknown"

def evidenceToken : ValidationStatus → List UInt8
  | .reference => ascii "reference"
  | .observed => ascii "observed"
  | .confirmed => ascii "confirmed"
  | .unknown _ => ascii "unknown"

/-- The wire has no code for the other values. -/
def wireTypeCode : SignalType → Option UInt8
  | .boolean => some 1
  | .number => some 2
  | .enum => some 3
  | .unknown _ => none

/-- The code that a record carries, zero where the wire has none. -/
def typeCode (type : SignalType) : UInt8 := (wireTypeCode type).getD 0

/-- What a lead byte above the ASCII range announces: its bits of the code point, the least code
point of its form and the number of continuation bytes. -/
def utf8Form (lead : ℕ) : Option (ℕ × ℕ × ℕ) :=
  if 0xc2 ≤ lead ∧ lead ≤ 0xdf then some (lead % 0x20, 0x80, 1)
  else if 0xe0 ≤ lead ∧ lead ≤ 0xef then some (lead % 0x10, 0x800, 2)
  else if 0xf0 ≤ lead ∧ lead ≤ 0xf4 then some (lead % 8, 0x10000, 3)
  else none

/-- The code point that continuation bytes complete. -/
def utf8CodePoint (codePoint : ℕ) : List UInt8 → Option ℕ
  | [] => some codePoint
  | continuation :: rest =>
    if continuation.toNat / 0x40 ≠ 2 then none
    else utf8CodePoint (codePoint * 0x40 + continuation.toNat % 0x40) rest

/-- The loop of the UTF-8 check; `fuel` bounds the number of characters. -/
def validUtf8Loop : ℕ → List UInt8 → Bool
  | _, [] => true
  | 0, _ :: _ => false
  | fuel + 1, lead :: rest =>
    if lead.toNat ≤ 0x7f then validUtf8Loop fuel rest
    else
      match utf8Form lead.toNat with
      | none => false
      | some (codePoint, minimum, continuationCount) =>
        if rest.length < continuationCount then false
        else
          match utf8CodePoint codePoint (rest.take continuationCount) with
          | none => false
          | some codePoint =>
            if codePoint < minimum ∨ 0x10ffff < codePoint ∨
                (0xd800 ≤ codePoint ∧ codePoint ≤ 0xdfff) then false
            else validUtf8Loop fuel (rest.drop continuationCount)

def validUtf8 (text : List UInt8) : Bool := validUtf8Loop text.length text

def validWireString (text : List UInt8) (maximumBytes : ℕ) : Bool :=
  !text.isEmpty && decide (text.length ≤ maximumBytes) && validUtf8 text

-- a two-byte character, a surrogate and an overlong form
example : validUtf8 [0xc2, 0xb0] = true ∧ validUtf8 [0xed, 0xa0, 0x80] = false ∧
    validUtf8 [0xe0, 0x80, 0x80] = false := by
  decide

/-! ### The size of a document -/

def tlvBytes (valueLength : ℕ) : ℕ := kTlvHeaderBytes + valueLength

def choicesValueBytes (metadata : SignalMetadata) : ℕ :=
  metadata.choices.foldl (fun size choice => size + (2 + 1 + choice.key.length)) 2

def descriptorBodyBytes (metadata : SignalMetadata) : ℕ :=
  let size := kSignalHandleBytes + tlvBytes metadata.key.length + tlvBytes 1 +
    tlvBytes (unitToken metadata.unit).length + tlvBytes (evidenceToken metadata.validation).length
  if metadata.type = .enum then size + tlvBytes (choicesValueBytes metadata) else size

/-! ### The export -/

/-- An export; its entries point into the catalogue. -/
structure SignalCatalogExport where
  entries : List SignalMetadata := []
  documentLength : ℕ := 0
  available : Bool := false
  deriving DecidableEq, Repr

/-- The strings and choices of an entry are within the bounds of the wire. -/
def wireEntry (metadata : SignalMetadata) : Bool :=
  validWireString metadata.key kMaxSignalCatalogKeyBytes &&
    validWireString (unitToken metadata.unit) kMaxSignalCatalogTokenBytes &&
    validWireString (evidenceToken metadata.validation) kMaxSignalCatalogTokenBytes &&
    (metadata.type != .enum ||
      (!metadata.choices.isEmpty && decide (metadata.choices.length ≤ kMaxSignalCatalogChoices) &&
        metadata.choices.all fun choice =>
          validWireString choice.key kMaxSignalCatalogKeyBytes))

/-- The loop that collects the entries and the size of the document. It passes over the entries
whose type has no code, and fails at the first other one that exceeds a bound. -/
def exportEntries : SignalCatalogView → List SignalMetadata → ℕ →
    Option (List SignalMetadata × ℕ)
  | [], entries, documentLength => some (entries, documentLength)
  | metadata :: rest, entries, documentLength =>
    if !metadata.capabilities.has .read then exportEntries rest entries documentLength
    else if (wireTypeCode metadata.type).isNone then exportEntries rest entries documentLength
    else if kMaxSignalCatalogSignals ≤ entries.length ∨ !wireEntry metadata then none
    else if 2 ^ 16 - 1 < descriptorBodyBytes metadata then none
    else
      let descriptorLength := kDescriptorLengthBytes + descriptorBodyBytes metadata
      if kMaxSignalCatalogDocumentBytes < descriptorLength ∨
          kMaxSignalCatalogDocumentBytes - descriptorLength < documentLength then none
      else exportEntries rest (entries ++ [metadata]) (documentLength + descriptorLength)

def SignalCatalogExport.create (catalog : SignalCatalogView) : SignalCatalogExport :=
  if ¬ catalog.wellFormed then {}
  else
    match exportEntries catalog [] kCatalogDocumentHeaderBytes with
    | none => {}
    | some (entries, documentLength) =>
      { entries, documentLength := documentLength % 2 ^ 16, available := true }

/-! ### The sink of a page -/

/-- A sink that counts the bytes of the document and keeps those from `first` up to `last`. -/
structure PageSink where
  page : EncodedSignalCatalogPage
  first : ℕ
  last : ℕ
  cursor : ℕ := 0
  ok : Bool := true

namespace PageSink

def push (sink : PageSink) (byte : UInt8) : PageSink :=
  if sink.first ≤ sink.cursor ∧ sink.cursor < sink.last then
    match sink.page.push byte with
    | some page => { sink with page, cursor := sink.cursor + 1 }
    | none => { sink with ok := false, cursor := sink.cursor + 1 }
  else { sink with cursor := sink.cursor + 1 }

def append (sink : PageSink) (text : List UInt8) : PageSink := text.foldl push sink

def pushU16 (sink : PageSink) (n : ℕ) : PageSink :=
  (sink.push (UInt8.ofNat n)).push (UInt8.ofNat (n / 2 ^ 8))

def appendTlv (sink : PageSink) (tag : UInt8) (value : List UInt8) : PageSink :=
  ((sink.push tag).pushU16 value.length).append value

/-- One choice of an enumeration, by its index. -/
def appendChoice (sink : PageSink) (choice : SignalEnumChoice × ℕ) : PageSink :=
  ((sink.pushU16 (choice.2 + 1)).push (UInt8.ofNat choice.1.key.length)).append choice.1.key

/-- One descriptor, by its index. -/
def appendDescriptor (sink : PageSink) (entry : SignalMetadata × ℕ) : PageSink :=
  let metadata := entry.1
  let sink := (sink.pushU16 (descriptorBodyBytes metadata)).pushU16 (entry.2 + 1)
  let sink := sink.appendTlv 1 metadata.key
  let sink := ((sink.push 2).pushU16 1).push (typeCode metadata.type)
  let sink := sink.appendTlv 3 (unitToken metadata.unit)
  let sink := sink.appendTlv 4 (evidenceToken metadata.validation)
  if metadata.type = .enum then
    let sink := (sink.push 5).pushU16 (choicesValueBytes metadata)
    let sink := sink.pushU16 metadata.choices.length
    metadata.choices.zipIdx.foldl appendChoice sink
  else sink

/-- The document of an export. -/
def appendDocument (sink : PageSink) (entries : List SignalMetadata) : PageSink :=
  entries.zipIdx.foldl appendDescriptor
    ((sink.push kSignalCatalogFormat).pushU16 entries.length)

end PageSink

namespace SignalCatalogExport

/-- The header of a page. -/
def pageHeader (e : SignalCatalogExport) (token offset dataLength : ℕ) :
    Option EncodedSignalCatalogPage := do
  let page ← BoundedBytes.empty.push kSignalCatalogFormat
  let page ← page.pushU32 token
  let page ← page.pushU16 e.documentLength
  let page ← page.pushU16 offset
  page.pushU16 dataLength

/-- A page of the document. -/
def encodePage (e : SignalCatalogExport) (token offset : ℕ) : Option EncodedSignalCatalogPage :=
  if !e.available ∨ token = 0 ∨ e.documentLength < offset then none
  else
    let remaining := e.documentLength - offset
    let dataLength :=
      if remaining < kSignalCatalogPageDataBytes then remaining else kSignalCatalogPageDataBytes
    match e.pageHeader token offset dataLength with
    | none => none
    | some page =>
      let sink := PageSink.appendDocument
        { page, first := offset, last := offset + dataLength } e.entries
      -- the loop over the entries gives up at one without a code
      if e.entries.any fun metadata => (wireTypeCode metadata.type).isNone then none
      else if !sink.ok ∨ sink.cursor ≠ e.documentLength ∨
          sink.page.bytes.length ≠ kSignalCatalogPageHeaderBytes + dataLength then none
      else some sink.page

/-! ### The handles of the wire -/

def signalCount (e : SignalCatalogExport) : ℕ := if e.available then e.entries.length else 0

def metadataForHandle (e : SignalCatalogExport) (wireHandle : ℕ) : Option SignalMetadata :=
  if !e.available ∨ wireHandle = 0 ∨ e.entries.length < wireHandle then none
  else e.entries[wireHandle - 1]?

def providerIdForHandle (e : SignalCatalogExport) (wireHandle : ℕ) : SignalId :=
  match e.metadataForHandle wireHandle with
  | none => {}
  | some metadata => metadata.id

/-- The wire handle of an enumeration value, its position among the choices. -/
def wireChoiceHandle (e : SignalCatalogExport) (wireHandle providerChoiceValue : ℕ) : Option ℕ :=
  match e.metadataForHandle wireHandle with
  | none => none
  | some metadata =>
    if metadata.type ≠ .enum then none
    else
      (metadata.choices.findIdx? fun choice => choice.value == providerChoiceValue).map (· + 1)

end SignalCatalogExport

end AccessoryController.CompanionProtocol
