import Mathlib.Data.Prod.Lex
import Mathlib.Data.Rat.Init
import Mathlib.Data.String.Basic
import AccessoryController.Library.Grouping
import AccessoryController.VehicleProfiles.BitCoordinates

/-!
# Composition of parsed sources

Parsed sources are composed into one message set keyed by the wire identity. Equal field mechanics
deduplicate, disjoint fields compose, and every contradiction is fatal. Representatives are chosen
in the order of their stable identifiers. The signature that identifies mechanics is a parameter
of the composition below, and `signature` is the one that the tool uses.

## Main definitions

* `Signal`, `Message`, `SourceInventory`: what the parser yields
* `signature`: the mechanics of a field, as the tool compares them
* `composeFieldsBy`: the composition of the fields of one message
* `compose`: the composition of all sources
-/

namespace AccessoryController.VehicleProfiles

open Grouping

/-! ### Parsed sources -/

/-- A range of a source text. -/
structure Span where
  sourceId : String
  line : ℕ
  column : ℕ
  endLine : ℕ
  endColumn : ℕ
  deriving DecidableEq, Repr, Inhabited

/-- Spans are sorted by their place. -/
def Span.key (span : Span) : String ×ₗ ℕ ×ₗ ℕ ×ₗ ℕ ×ₗ ℕ :=
  toLex (span.sourceId, toLex (span.line, toLex (span.column, toLex (span.endLine,
    span.endColumn))))

theorem Span.key_injective : Function.Injective Span.key := by
  rintro ⟨_, _, _, _, _⟩ ⟨_, _, _, _, _⟩ h
  simpa [Span.key] using h

instance : LinearOrder Span := LinearOrder.lift' Span.key Span.key_injective

structure ValueLabel where
  raw : ℤ
  label : String
  spans : List Span := []
  deriving DecidableEq, Repr

structure Signal where
  fieldId : String
  name : String
  start : ℕ
  length : ℕ
  byteOrder : ByteOrder
  signed : Bool
  scale : ℚ
  offset : ℚ
  minimum : ℚ
  maximum : ℚ
  unit : String
  receivers : List String := []
  occupiedBits : List ℕ
  valueTable : List ValueLabel := []
  spans : List Span
  multiplex : Option String := none
  valueType : ℕ := 0
  deriving DecidableEq, Repr

inductive IdentifierFormat
  | standard | extended
  deriving DecidableEq, Repr

/-- The text of a format, by which it is sorted. -/
def IdentifierFormat.text : IdentifierFormat → String
  | .standard => "standard"
  | .extended => "extended"

/-- A message with its signals. -/
structure Message (S : Type) where
  messageId : String
  rawId : ℕ
  wireId : ℕ
  identifierFormat : IdentifierFormat
  name : String
  length : ℕ
  sender : String := ""
  executable : Bool := true
  signals : List S
  spans : List Span
  cycleTimeMs : Option ℕ := none
  frameFormat : Option String := none
  unsupportedForms : List String := []
  deriving DecidableEq, Repr

structure SourceInventory where
  sourceId : String
  bus : String
  messages : List (Message Signal)
  deriving DecidableEq, Repr

/-! ### The result -/

/-- A representative field with every original name and contributing source. -/
structure ComposedSignal extends Signal where
  names : List String
  sources : List String
  deriving DecidableEq, Repr

inductive AliasKind
  | message | field
  deriving DecidableEq, Repr

/-- An original definition behind a composed representative. -/
structure Alias where
  kind : AliasKind
  representative : String
  sourceId : String
  name : String
  originalId : String
  spans : List Span
  deriving DecidableEq, Repr

/-- A `source_conflict` with the places of both definitions. -/
structure ComposeError where
  reason : String
  spans : Span × Span
  deriving DecidableEq, Repr

/-- The composed messages in the order of their keys, and the alias inventory. -/
abbrev Composition := List (Message ComposedSignal) × List Alias

/-! ### Fields -/

/-- The mechanics of a field. -/
structure Signature where
  start : ℕ
  length : ℕ
  byteOrder : ByteOrder
  signed : Bool
  scale : ℚ
  offset : ℚ
  minimum : ℚ
  maximum : ℚ
  unit : String
  valueTable : List (ℤ × String)
  deriving DecidableEq, Repr

def ValueLabel.entry (value : ValueLabel) : ℤ × String := (value.raw, value.label)

/-- The raw-value table enters the signature in the order of its entries. -/
def signature (signal : Signal) : Signature where
  start := signal.start
  length := signal.length
  byteOrder := signal.byteOrder
  signed := signal.signed
  scale := signal.scale
  offset := signal.offset
  minimum := signal.minimum
  maximum := signal.maximum
  unit := signal.unit
  valueTable := signal.valueTable.map ValueLabel.entry

/-- The first place of a definition; a parsed definition has one. -/
def firstSpan (spans : List Span) : Span := spans.headD default

def Signal.source (signal : Signal) : String := (firstSpan signal.spans).sourceId

/-- The label of a raw value; the last entry of a value counts. -/
def Signal.label? (signal : Signal) (raw : ℤ) : Option String :=
  (signal.valueTable.reverse.find? fun entry => entry.raw = raw).map ValueLabel.label

def Signal.overlaps (first second : Signal) : Bool :=
  first.occupiedBits.any fun bit => bit ∈ second.occupiedBits

def Signal.sameBits (first second : Signal) : Bool :=
  (first.occupiedBits.all fun bit => bit ∈ second.occupiedBits) &&
    second.occupiedBits.all fun bit => bit ∈ first.occupiedBits

/-- What contradicts between two fields with different mechanics. -/
def conflictReason (first second : Signal) : Option String :=
  if first.overlaps second then
    if !first.sameBits second then some "fields partially overlap in occupied bits"
    else
      match second.valueTable.find? fun entry =>
          (first.label? entry.raw).getD entry.label ≠ entry.label with
      | some entry => some ("conflicting labels for raw value " ++ toString entry.raw)
      | none => some "fields have different mechanics on the same bits"
  else if first.name = second.name then
    some ("incompatible definitions of source signal name " ++ first.name)
  else none

def conflict (first second : Signal) : Option ComposeError :=
  (conflictReason first second).map fun reason =>
    ⟨reason, firstSpan first.spans, firstSpan second.spans⟩

/-- The first conflict of a group with the ones before it, over the groups in order. -/
def firstConflict : List (Class Signal) → List (Class Signal) → Option ComposeError
  | _, [] => none
  | earlier, later :: rest =>
    match (earlier.flatMap Class.items).findSome? fun first =>
        later.items.findSome? fun second => conflict first second with
    | some error => some error
    | none => firstConflict (earlier ++ [later]) rest

def composedSignal (group : Class Signal) : ComposedSignal where
  toSignal := { group.first with spans := sortedSet (group.items.flatMap Signal.spans) }
  names := sortedSet (group.items.map Signal.name)
  sources := sortedSet (group.items.map Signal.source)

def fieldAliases (group : Class Signal) : List Alias :=
  group.items.map fun item =>
    ⟨.field, group.first.fieldId, item.source, item.name, item.fieldId, item.spans⟩

/-- The occurrences of one field identifier as one field, which has all their places. -/
def mergedSignal (found : Class Signal) : Signal :=
  { found.first with spans := sortedSet (found.items.flatMap Signal.spans) }

section

variable {S : Type} [DecidableEq S] (signature : Signal → S)

/-- Merges the occurrences of one field identifier, which have equal mechanics. -/
def mergeOccurrences (found : Class Signal) : Except ComposeError Signal :=
  match found.later.find? fun other => signature other ≠ signature found.first with
  | some other => .error
      ⟨"incompatible definitions of source signal name " ++ found.first.name,
        firstSpan found.first.spans, firstSpan other.spans⟩
  | none => .ok (mergedSignal found)

/-- The groups of equal mechanics, in the order of their representatives. -/
def fieldGroups (merged : List Signal) : List (Class Signal) :=
  sortOn (fun group => group.first.fieldId) (classes signature merged)

def composeFieldsBy (signals : List Signal) :
    Except ComposeError (List ComposedSignal × List Alias) := do
  let byId := sortOn (fun found => found.first.fieldId) (classes Signal.fieldId signals)
  let merged ← byId.mapM (mergeOccurrences signature)
  match firstConflict [] (fieldGroups signature merged) with
  | some error => throw error
  | none =>
    pure ((fieldGroups signature merged).map composedSignal,
      (fieldGroups signature merged).flatMap fieldAliases)

/-! ### Messages -/

def messageAliases (representative : Message Signal) (fragments : List (Message Signal)) :
    List Alias :=
  fragments.map fun item =>
    ⟨.message, representative.messageId, (firstSpan item.spans).sourceId, item.name,
      item.messageId, item.spans⟩

/-- The message that stands for its fragments, with their composed fields. -/
def composedMessage (representative : Message Signal) (fragments : List (Message Signal))
    (fields : List ComposedSignal) : Message ComposedSignal :=
  { representative with
    signals := fields
    executable := fragments.all Message.executable
    unsupportedForms := sortedSet (fragments.flatMap Message.unsupportedForms)
    spans := sortedSet (fragments.flatMap Message.spans) }

/-- Composes the fragments of one wire identity, sorted by their identifiers. -/
def composeFragmentsBy : List (Message Signal) → Except ComposeError Composition
  | [] => pure ([], [])
  | representative :: others =>
    match others.find? fun other => other.length ≠ representative.length with
    | some other => throw
        ⟨"messages with one wire identity have different payload lengths",
          firstSpan representative.spans, firstSpan other.spans⟩
    | none => do
      let fragments := representative :: others
      let (fields, aliases) ← composeFieldsBy signature (fragments.flatMap Message.signals)
      pure ([composedMessage representative fragments fields],
        messageAliases representative fragments ++ aliases)

/-- The key of a message: its bus and its wire identity. -/
abbrev MessageKey := String ×ₗ String ×ₗ ℕ

def messageKey (bus : String) {S : Type} (message : Message S) : MessageKey :=
  toLex (bus, toLex (message.identifierFormat.text, message.wireId))

def SourceInventory.keyed (inventory : SourceInventory) : List (MessageKey × Message Signal) :=
  inventory.messages.map fun message => (messageKey inventory.bus message, message)

def composeBy (inventories : List SourceInventory) : Except ComposeError Composition := do
  let keyed := inventories.flatMap SourceInventory.keyed
  let parts ← (sortOn (fun c => c.first.1) (classes Prod.fst keyed)).mapM fun c =>
    composeFragmentsBy signature (sortOn Message.messageId (c.items.map Prod.snd))
  pure (parts.flatMap Prod.fst, parts.flatMap Prod.snd)

end

/-- The composition of the tool. -/
def compose (inventories : List SourceInventory) : Except ComposeError Composition :=
  composeBy signature inventories

end AccessoryController.VehicleProfiles
