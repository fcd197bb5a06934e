import AccessoryController.Library.Outcome
import AccessoryController.VehicleProfiles.DbcCompose

/-!
# The composition inside profile validation

Validation of a profile document composes its messages a second time, in code of its own: messages
of one wire identity are merged, equal overlapping fields are merged into the first of them, and
any other overlap is a conflict. Decimal texts stand for exact rationals.

## Main definitions

* `document`: the profile messages that the importer writes for a composition
* `composeProfile`: the second composition

## Main results

* `composeProfile_of_disjoint`: a document without overlaps is left as it is
-/

namespace AccessoryController.VehicleProfiles

open Grouping Outcome

structure ProfileField where
  id : String
  name : String
  sources : List String
  start : ℕ
  length : ℕ
  byteOrder : ByteOrder
  signed : Bool
  scale : ℚ
  offset : ℚ
  minimum : ℚ
  maximum : ℚ
  unit : String
  valueTable : List (ℤ × String)
  deriving DecidableEq, Repr

structure ProfileMessage where
  id : String
  bus : String
  identifierFormat : IdentifierFormat
  identifier : ℕ
  dlc : ℕ
  fields : List ProfileField
  deriving DecidableEq, Repr

structure ProfileError where
  category : String
  path : String
  reason : String
  sources : List String
  deriving DecidableEq, Repr

/-! ### What the importer writes -/

def profileField (signal : ComposedSignal) : ProfileField where
  id := signal.fieldId
  name := signal.name
  sources := signal.sources
  start := signal.start
  length := signal.length
  byteOrder := signal.byteOrder
  signed := signal.signed
  scale := signal.scale
  offset := signal.offset
  minimum := signal.minimum
  maximum := signal.maximum
  unit := signal.unit
  valueTable := signal.valueTable.map ValueLabel.entry

def profileMessage (bus : String) (message : Message ComposedSignal) : ProfileMessage where
  id := message.messageId
  bus := bus
  identifierFormat := message.identifierFormat
  identifier := message.wireId
  dlc := message.length
  fields := message.signals.map profileField

/-- The executable messages of a composition as profile messages. -/
def document (bus : String) (messages : List (Message ComposedSignal)) : List ProfileMessage :=
  (messages.filter Message.executable).map (profileMessage bus)

/-! ### The second composition -/

/-- The mechanics of a field; here the raw-value table is sorted. -/
def fieldSignature (field : ProfileField) : Signature where
  start := field.start
  length := field.length
  byteOrder := field.byteOrder
  signed := field.signed
  scale := field.scale
  offset := field.offset
  minimum := field.minimum
  maximum := field.maximum
  unit := field.unit
  valueTable := sortOn toLex field.valueTable

def ProfileField.bits (field : ProfileField) : List ℕ :=
  occupiedBits field.start field.length field.byteOrder

def ProfileField.overlaps (field existing : ProfileField) : Bool :=
  field.bits.any fun bit => bit ∈ existing.bits

/-- The fields composed so far, and the surviving field of each one. -/
structure MessageComposition where
  fields : List ProfileField := []
  aliases : List (String × String) := []

def composeField (result : MessageComposition) (field : ProfileField) :
    Except ProfileError MessageComposition :=
  match result.fields.find? fun existing =>
      field.overlaps existing && fieldSignature field ≠ fieldSignature existing with
  | some existing => .error
      ⟨"source_conflict", "$.messages", "contradictory or unsupported overlapping fields",
        sortedSet (field.sources ++ existing.sources)⟩
  | none =>
    match (result.fields.filter field.overlaps).getLast? with
    | some duplicate => .ok
        ⟨result.fields.map fun existing =>
            if existing.id = duplicate.id then
              { existing with sources := sortedSet (duplicate.sources ++ field.sources) }
            else existing,
          result.aliases ++ [(field.id, duplicate.id)]⟩
    | none => .ok ⟨result.fields ++ [field], result.aliases ++ [(field.id, field.id)]⟩

def composeProfileMessage :
    List ProfileMessage → Except ProfileError (List ProfileMessage × List (String × String))
  | [] => pure ([], [])
  | first :: others =>
    if ((first :: others).map ProfileMessage.dlc).dedup.length ≠ 1 then throw
      ⟨"source_conflict", "$.messages", "same message has contradictory payload sizes",
        sortedSet (((first :: others).flatMap ProfileMessage.fields).flatMap
          ProfileField.sources)⟩
    else do
      let fields := sortOn ProfileField.id ((first :: others).flatMap ProfileMessage.fields)
      let result ← fields.foldlM composeField {}
      pure ([{ first with fields := result.fields }], result.aliases)

def ProfileMessage.key (message : ProfileMessage) : MessageKey :=
  toLex (message.bus, toLex (message.identifierFormat.text, message.identifier))

/-- The composed messages, with the surviving field of each field. -/
def composeProfile (messages : List ProfileMessage) :
    Except ProfileError (List ProfileMessage × List (String × String)) := do
  let parts ← (sortOn (fun c => c.first.key) (classes ProfileMessage.key messages)).mapM fun c =>
    composeProfileMessage (sortOn ProfileMessage.id c.items)
  pure (parts.flatMap Prod.fst, parts.flatMap Prod.snd)

/-! ### Documents without overlaps -/

/-- Every field of a document survives as itself. -/
def identityAliases (messages : List ProfileMessage) : List (String × String) :=
  messages.flatMap fun message => message.fields.map fun field => (field.id, field.id)

theorem composeField_of_disjoint {result : MessageComposition} {field : ProfileField}
    (h : ∀ existing ∈ result.fields, field.overlaps existing = false) :
    composeField result field =
      .ok ⟨result.fields ++ [field], result.aliases ++ [(field.id, field.id)]⟩ := by
  have hfind : (result.fields.find? fun existing =>
      field.overlaps existing && fieldSignature field ≠ fieldSignature existing) = none := by
    rw [List.find?_eq_none]
    intro existing hmem
    simp [h existing hmem]
  have hfilter : result.fields.filter field.overlaps = [] := by
    rw [List.filter_eq_nil_iff]
    intro existing hmem
    simp [h existing hmem]
  rw [composeField, hfind, hfilter]
  rfl

theorem foldlM_composeField {fields : List ProfileField} {result : MessageComposition}
    (hpairs : fields.Pairwise fun existing field => field.overlaps existing = false)
    (h : ∀ existing ∈ result.fields, ∀ field ∈ fields, field.overlaps existing = false) :
    fields.foldlM composeField result =
      .ok ⟨result.fields ++ fields,
        result.aliases ++ fields.map fun field => (field.id, field.id)⟩ := by
  induction fields generalizing result with
  | nil => simp [pure, Except.pure]
  | cons field fields ih =>
    obtain ⟨hhead, htail⟩ := List.pairwise_cons.mp hpairs
    rw [List.foldlM_cons,
      composeField_of_disjoint fun existing hmem => h existing hmem field List.mem_cons_self]
    change List.foldlM composeField _ fields = _
    rw [ih htail]
    · simp
    · intro existing hmem later hlater
      rcases List.mem_append.mp hmem with hold | hnew
      · exact h existing hold later (List.mem_cons_of_mem field hlater)
      · rw [List.mem_singleton.mp hnew]
        exact hhead later hlater

/-- **A document without overlaps**, in the order of its keys and of its field identifiers, is
left as it is. -/
theorem composeProfile_of_disjoint {messages : List ProfileMessage}
    (hkeys : messages.Pairwise fun first second => first.key < second.key)
    (hsorted : ∀ message ∈ messages, message.fields.Pairwise fun a b => a.id ≤ b.id)
    (hdisjoint : ∀ message ∈ messages,
      message.fields.Pairwise fun existing field => field.overlaps existing = false) :
    composeProfile messages = .ok (messages, identityAliases messages) := by
  have hclasses : sortOn (fun c => c.first.key) (classes ProfileMessage.key messages) =
      messages.map fun message => ⟨message, []⟩ := by
    rw [classes_of_pairwise (hkeys.imp fun h => h.ne), sortOn_eq_self]
    exact List.pairwise_map.mpr (hkeys.imp fun h => h.le)
  have hparts : (messages.map fun message => (⟨message, []⟩ : Class ProfileMessage)).mapM (fun c =>
      composeProfileMessage (sortOn ProfileMessage.id c.items)) =
      .ok (messages.map fun message =>
        ([message], message.fields.map fun field => (field.id, field.id))) := by
    rw [mapM_eq_ok, List.forall₂_map_left_iff, List.forall₂_map_right_iff, List.forall₂_same]
    intro message hmem
    have hsort : sortOn ProfileField.id message.fields = message.fields :=
      sortOn_eq_self (hsorted message hmem)
    have hfold : message.fields.foldlM composeField {} =
        .ok ⟨message.fields, message.fields.map fun field => (field.id, field.id)⟩ :=
      foldlM_composeField (hdisjoint message hmem) (by simp)
    have hone : sortOn ProfileMessage.id [message] = [message] := rfl
    simp only [Class.items, hone, composeProfileMessage, List.flatMap_cons, List.flatMap_nil,
      List.append_nil, hsort, hfold]
    rfl
  rw [composeProfile, hclasses, hparts]
  simp [pure, Except.pure, bind, Except.bind, identityAliases, List.flatMap_map]

end AccessoryController.VehicleProfiles
