import AccessoryController.VehicleSignals.Contracts

/-!
# Signal catalogues

The static description of the signals of a provider. Keys are byte strings; a catalogue is a list
of entries, looked up linearly.

## Main definitions

* `SignalMetadata`: the description of one signal
* `SignalCatalogView`: a catalogue
* `SignalCatalogView.wellFormed`: the structural check of a catalogue
-/

namespace AccessoryController.VehicleSignals

open VehicleCore

/-- One named raw value of an enumeration. -/
structure SignalEnumChoice where
  value : ℕ := 0
  key : List UInt8 := []
  deriving DecidableEq, Repr

structure SignalMetadata where
  id : SignalId := {}
  key : List UInt8 := []
  type : SignalType := .boolean
  unit : SignalUnit := .none
  validation : ValidationStatus := .reference
  capabilities : SignalCapabilities := {}
  choices : List SignalEnumChoice := []
  deriving DecidableEq, Repr

/-- The first choice with a key. -/
def SignalMetadata.findChoice (metadata : SignalMetadata) (choiceKey : List UInt8) :
    Option SignalEnumChoice :=
  metadata.choices.find? fun choice => choice.key == choiceKey

/-- The first choice with a raw value. -/
def SignalMetadata.findValue (metadata : SignalMetadata) (value : ℕ) : Option SignalEnumChoice :=
  metadata.choices.find? fun choice => choice.value == value

/-- The value has the signal's type and, for an enumeration, names a choice. -/
def SignalMetadata.accepts (metadata : SignalMetadata) (value : SignalValue) : Bool :=
  if value.type ≠ metadata.type then false
  else
    match value with
    | .enumeration raw => (metadata.choices.find? fun choice => choice.value == raw).isSome
    | _ => true

abbrev SignalCatalogView := List SignalMetadata

namespace SignalCatalogView

/-- The first entry with an identifier; the reserved identifier names none. -/
def find (catalog : SignalCatalogView) (id : SignalId) : Option SignalMetadata :=
  if id.valid then List.find? (fun entry => entry.id == id) catalog else none

/-- The first entry with a key; the empty key names none. -/
def findKey (catalog : SignalCatalogView) (key : List UInt8) : Option SignalMetadata :=
  if key.isEmpty then none else List.find? (fun entry => entry.key == key) catalog

/-- An enumeration has distinct named choices; other types have none. -/
def choicesWellFormed (entry : SignalMetadata) : Prop :=
  if entry.type ≠ .enum then entry.choices = []
  else entry.choices ≠ [] ∧ (∀ choice ∈ entry.choices, choice.key ≠ []) ∧
    entry.choices.Pairwise fun choice other =>
      other.value ≠ choice.value ∧ other.key ≠ choice.key

instance (entry : SignalMetadata) : Decidable (choicesWellFormed entry) := by
  unfold choicesWellFormed
  infer_instance

/-- Identifiers are valid and distinct, keys are nonempty and distinct, every signal supports
something, and only numbers carry a unit. -/
def wellFormed (catalog : SignalCatalogView) : Prop :=
  (∀ entry ∈ catalog, entry.id.valid ∧ entry.key ≠ [] ∧ entry.capabilities.empty = false ∧
    (entry.type ≠ .number → entry.unit = .none) ∧ choicesWellFormed entry) ∧
  List.Pairwise (fun entry other : SignalMetadata =>
    other.id ≠ entry.id ∧ other.key ≠ entry.key) catalog

instance (catalog : SignalCatalogView) : Decidable catalog.wellFormed := by
  unfold wellFormed
  infer_instance

end SignalCatalogView

end AccessoryController.VehicleSignals
