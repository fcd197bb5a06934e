import AccessoryController.ControllerConfig.Persisted.ParsedDocument

/-!
# The canonical text

What the serializer writes for a readable model is JSON. The items of a document have a bounded
depth, and the number of its brackets and commas is a sum over the entries of the model.

## Main definitions

* `ControllerConfig.Readable`: what the serializer can write and the loader can read
* `structuralElements`: the brackets and the commas of the canonical text of a model

## Main results

* `spells_escaped`: the spelling of a string
* `wellFormed_documentItem`: the canonical text is JSON
* `nesting_documentItem`, `elements_documentItem`: its depth and its size
-/

open AccessoryController.ControllerConfig (Bytes)

namespace AccessoryController.Persisted

open ActionEngine (NumericRange)
open Json (Spells IsPlain Items Kind)

/-! ### Strings -/

theorem hexValue_hexDigit {n : ℕ} (h : n < 16) : Json.hexValue (hexDigit n) = some n := by
  have hall : ∀ n < 16, Json.hexValue (hexDigit n) = some n := by decide
  exact hall n h

/-- **The spelling of a string** without NUL. -/
theorem spells_escaped {value : Bytes} (h : 0 ∉ value) :
    Spells (value.flatMap escapeByte) value := by
  induction value with
  | nil => exact .nil
  | cons c value ih =>
    have hc : c ≠ 0 := fun hzero => h (hzero ▸ List.mem_cons_self)
    have hrest := ih fun hmem => h (List.mem_cons_of_mem c hmem)
    rw [List.flatMap_cons, escapeByte]
    by_cases hquote : c = 34
    · subst hquote
      exact .short (by decide) hrest
    rw [if_neg hquote]
    by_cases hbackslash : c = 92
    · subst hbackslash
      exact .short (by decide) hrest
    rw [if_neg hbackslash]
    by_cases hbackspace : c = 8
    · subst hbackspace
      exact .short (by decide) hrest
    rw [if_neg hbackspace]
    by_cases hfeed : c = 12
    · subst hfeed
      exact .short (by decide) hrest
    rw [if_neg hfeed]
    by_cases hnewline : c = 10
    · subst hnewline
      exact .short (by decide) hrest
    rw [if_neg hnewline]
    by_cases hreturn : c = 13
    · subst hreturn
      exact .short (by decide) hrest
    rw [if_neg hreturn]
    by_cases htab : c = 9
    · subst htab
      exact .short (by decide) hrest
    rw [if_neg htab]
    by_cases hcontrol : c < 32
    · -- the other control characters are written by code point
      have hlt : c.toNat < 32 := UInt8.lt_iff_toNat_lt.mp hcontrol
      have hpos : 0 < c.toNat := by
        refine Nat.pos_of_ne_zero fun hzero => hc ?_
        exact UInt8.toNat_inj.mp hzero
      have hvalue : 16 * (c.toNat / 16) + c.toNat % 16 = c.toNat := Nat.div_add_mod _ 16
      have hspells := Spells.codePoint (hexValue_hexDigit (n := c.toNat / 16) (by omega))
        (hexValue_hexDigit (n := c.toNat % 16) (by omega)) (by omega) (by omega) hrest
      rw [hvalue, UInt8.ofNat_toNat] at hspells
      rw [if_pos hcontrol]
      exact hspells
    · rw [if_neg hcontrol]
      exact .plain ⟨UInt8.not_lt.mp hcontrol, hquote, hbackslash⟩ hrest

/-! ### Items -/

section

variable {key : String} {keyed : Bool} (hkey : Json.IsKey (ascii key) keyed)

include hkey

theorem wellFormed_stringItem {value : Bytes} (h : 0 ∉ value) :
    (stringItem key value).WellFormed keyed :=
  ⟨⟨hkey, spells_escaped h, fun _ => rfl⟩, trivial, trivial⟩

theorem wellFormed_enumItem {Enum : Type} [Names Enum] [DecidableEq Enum] [LawfulNames Enum]
    (value : Enum) : (enumItem key value).WellFormed keyed :=
  wellFormed_stringItem hkey (nulFree_nameOf value)

theorem wellFormed_integerItem (value : ℤ) : (integerItem key value).WellFormed keyed :=
  ⟨⟨hkey, isNumber_integerText value, fun _ => rfl⟩, trivial, trivial⟩

theorem wellFormed_floatItem {library : ExternalLibrary} (hlibrary : library.Faithful)
    {value : Binary32} (h : value.isFinite = true) :
    (floatItem library key value).WellFormed keyed := by
  have hnumber := (hlibrary.floats value h).1
  rw [← appendFloat_eq hlibrary h] at hnumber
  exact ⟨⟨hkey, hnumber, fun _ => rfl⟩, trivial, trivial⟩

theorem wellFormed_objectItem {members : List Json.Item}
    (h : ∀ member ∈ members, member.WellFormed true) : (objectItem key members).WellFormed keyed :=
  ⟨⟨hkey, trivial, fun hkind => by cases hkind⟩, Items.wellFormed_ofList.mpr h, trivial⟩

theorem wellFormed_arrayItem {entries : List Json.Item}
    (h : ∀ entry ∈ entries, entry.WellFormed false) :
    (arrayItem key entries).WellFormed keyed :=
  ⟨⟨hkey, trivial, fun hkind => by cases hkind⟩, Items.wellFormed_ofList.mpr h, trivial⟩

end

/-! ### Entries -/

section

variable {library : ExternalLibrary} (hlibrary : library.Faithful)

include hlibrary

theorem wellFormed_operandItem {operand : Operand} (h : operand.Readable) :
    (operandItem library operand).WellFormed true := by
  cases operand with
  | boolean value =>
    have hkey : Json.IsKey (ascii "boolean") true := by decide
    exact ⟨⟨hkey, trivial, fun _ => rfl⟩, trivial, trivial⟩
  | number value => exact wellFormed_floatItem (by decide) hlibrary h
  | choice key => exact wellFormed_stringItem (by decide) h

theorem wellFormed_conditionItems {condition : Condition} (h : condition.Readable) :
    ∀ member ∈ conditionItems library condition, member.WellFormed true := by
  have hoperand : ∀ member ∈ [operandItem library condition.operand], member.WellFormed true :=
    List.forall_mem_singleton.mpr (wellFormed_operandItem hlibrary h.2.2)
  simp only [conditionItems, List.forall_mem_cons]
  exact ⟨wellFormed_stringItem (by decide) h.1, wellFormed_enumItem (by decide) _,
    wellFormed_objectItem (by decide) hoperand, by simp⟩

theorem wellFormed_rangeItem {key : String} (hkey : Json.IsKey (ascii key) true)
    {range : NumericRange} (hfrom : range.fromBound.isFinite = true)
    (hto : range.toBound.isFinite = true) : (rangeItem library key range).WellFormed true := by
  refine wellFormed_objectItem hkey ?_
  simp only [List.forall_mem_cons]
  exact ⟨wellFormed_floatItem (by decide) hlibrary hfrom,
    wellFormed_floatItem (by decide) hlibrary hto, by simp⟩

theorem wellFormed_releaseItems {release : Option Binary32}
    (h : ∀ value ∈ release, value.isFinite = true) :
    ∀ member ∈ releaseItems library release, member.WellFormed true := by
  cases release with
  | none => simp [releaseItems]
  | some value =>
    exact List.forall_mem_singleton.mpr (wellFormed_floatItem (by decide) hlibrary (h value rfl))

/-- **A rule** is written as JSON. -/
theorem wellFormed_ruleItem {rule : Rule} (h : rule.Readable) :
    (ruleItem library rule).WellFormed false := by
  refine wellFormed_objectItem (by decide) ?_
  have htype : ∀ {name : String}, 0 ∉ ascii name →
      (stringItem "type" (ascii name)).WellFormed true :=
    fun hname => wellFormed_stringItem (by decide) hname
  have haction : ∀ {action : Bytes}, 0 ∉ action → (stringItem "action" action).WellFormed true :=
    fun hnul => wellFormed_stringItem (by decide) hnul
  have hfreshness : ∀ freshness : ActionEngine.FreshnessRequirement,
      (enumItem "freshness" freshness).WellFormed true := wellFormed_enumItem (by decide)
  cases rule with
  | state rule =>
    obtain ⟨hnul, -, hcondition⟩ := h
    have hmembers := wellFormed_conditionItems hlibrary hcondition
    simp only [ruleMembers, List.forall_mem_append, List.forall_mem_cons]
    exact ⟨⟨⟨htype (by decide), haction hnul, by simp⟩, hmembers⟩, hfreshness _, by simp⟩
  | sampledState rule =>
    obtain ⟨hnul, -, hcondition, hrelease⟩ := h
    have hmembers := wellFormed_conditionItems hlibrary hcondition
    have hreleases := wellFormed_releaseItems hlibrary hrelease
    simp only [ruleMembers, List.forall_mem_append, List.forall_mem_cons]
    exact ⟨⟨⟨⟨htype (by decide), haction hnul, by simp⟩, hmembers⟩, hreleases⟩, hfreshness _,
      by simp⟩
  | event rule =>
    obtain ⟨hnul, -, hcondition, -⟩ := h
    have hmembers := wellFormed_conditionItems hlibrary hcondition
    simp only [ruleMembers, List.forall_mem_append, List.forall_mem_cons]
    exact ⟨⟨⟨htype (by decide), haction hnul, by simp⟩, hmembers⟩,
      wellFormed_enumItem (by decide) _, hfreshness _, by simp⟩
  | range rule =>
    obtain ⟨hnul, -, hsignal, hinput, houtput⟩ := h
    simp only [ruleMembers, List.forall_mem_cons]
    exact ⟨htype (by decide), haction hnul, wellFormed_stringItem (by decide) hsignal,
      wellFormed_rangeItem hlibrary (by decide) hinput.1 hinput.2,
      wellFormed_rangeItem hlibrary (by decide) houtput.1 houtput.2, hfreshness _, by simp⟩

end

theorem wellFormed_zoneItem (zone : LedZone) : (zoneItem zone).WellFormed true := by
  refine wellFormed_objectItem (by decide) ?_
  simp only [List.forall_mem_cons]
  exact ⟨wellFormed_integerItem (by decide) _, wellFormed_integerItem (by decide) _,
    wellFormed_enumItem (by decide) _, by simp⟩

theorem wellFormed_colorItem (color : Rgb) : (colorItem color).WellFormed true := by
  refine wellFormed_objectItem (by decide) ?_
  simp only [List.forall_mem_cons]
  exact ⟨wellFormed_integerItem (by decide) _, wellFormed_integerItem (by decide) _,
    wellFormed_integerItem (by decide) _, by simp⟩

/-- **An output** is written as JSON. -/
theorem wellFormed_outputItem {binding : OutputBinding} (h : 0 ∉ binding.action) :
    (outputItem binding).WellFormed false := by
  refine wellFormed_objectItem (by decide) ?_
  have haction : (stringItem "action" binding.action).WellFormed true :=
    wellFormed_stringItem (by decide) h
  have hpriority : ∀ priority, (integerItem "priority" priority).WellFormed true :=
    wellFormed_integerItem (by decide)
  cases binding with
  | ledEffect binding =>
    simp only [outputMembers, List.forall_mem_cons]
    exact ⟨wellFormed_stringItem (by decide) (by decide), haction,
      wellFormed_enumItem (by decide) _, hpriority _, by simp⟩
  | ledTransient binding =>
    simp only [outputMembers, List.forall_mem_cons]
    exact ⟨wellFormed_stringItem (by decide) (by decide), haction, wellFormed_zoneItem _,
      wellFormed_colorItem _, wellFormed_integerItem (by decide) _, hpriority _, by simp⟩
  | ledSolid binding =>
    simp only [outputMembers, List.forall_mem_cons]
    exact ⟨wellFormed_stringItem (by decide) (by decide), haction, wellFormed_zoneItem _,
      wellFormed_colorItem _, hpriority _, by simp⟩
  | ledFill binding =>
    simp only [outputMembers, List.forall_mem_cons]
    exact ⟨wellFormed_stringItem (by decide) (by decide), haction, wellFormed_zoneItem _,
      wellFormed_colorItem _, hpriority _, by simp⟩

/-! ### Documents -/

/-- Strings have no NUL, numbers are finite, and a double holds the integers exactly. -/
structure ControllerConfig.Readable (config : ControllerConfig) : Prop where
  version : Small config.version
  pixels : Small config.pixelCount
  actions : ∀ action ∈ config.actions, 0 ∉ action.name
  rules : ∀ rule ∈ config.rules, rule.Readable
  outputs : ∀ output ∈ config.outputs, output.Readable

theorem OutputBinding.Readable.action {binding : OutputBinding} (h : binding.Readable) :
    0 ∉ binding.action := by
  cases binding <;> exact h.1

theorem wellFormed_sinkItems (pixelCount : ℤ) :
    ∀ member ∈ sinkItems pixelCount, member.WellFormed true := by
  unfold sinkItems
  split
  · have hcount : ∀ member ∈ [integerItem "pixel_count" pixelCount], member.WellFormed true :=
      List.forall_mem_singleton.mpr (wellFormed_integerItem (by decide) _)
    have hargb : ∀ member ∈ [objectItem "local_argb" [integerItem "pixel_count" pixelCount]],
        member.WellFormed true :=
      List.forall_mem_singleton.mpr (wellFormed_objectItem (by decide) hcount)
    exact List.forall_mem_singleton.mpr (wellFormed_objectItem (by decide) hargb)
  · exact fun member hmember => absurd hmember List.not_mem_nil

/-- **The canonical text** of a readable model is JSON. -/
theorem wellFormed_documentItem {library : ExternalLibrary} (hlibrary : library.Faithful)
    {config : ControllerConfig} (h : config.Readable) :
    (documentItem library config).WellFormed false := by
  have hactions : ∀ entry ∈ config.actions.map actionItem, entry.WellFormed false :=
    List.forall_mem_map.mpr fun action haction => wellFormed_objectItem (by decide)
      (List.forall_mem_singleton.mpr (wellFormed_stringItem (by decide) (h.actions action haction)))
  have hrules : ∀ entry ∈ config.rules.map (ruleItem library), entry.WellFormed false :=
    List.forall_mem_map.mpr fun rule hrule => wellFormed_ruleItem hlibrary (h.rules rule hrule)
  have houtputs : ∀ entry ∈ config.outputs.map outputItem, entry.WellFormed false :=
    List.forall_mem_map.mpr fun output houtput =>
      wellFormed_outputItem (h.outputs output houtput).action
  change (objectItem "" (documentMembers library config)).WellFormed false
  refine wellFormed_objectItem (by decide) ?_
  simp only [documentMembers, List.forall_mem_append, List.forall_mem_cons]
  exact ⟨⟨⟨wellFormed_integerItem (by decide) _, by simp⟩, wellFormed_sinkItems _⟩,
    wellFormed_arrayItem (by decide) hactions, wellFormed_arrayItem (by decide) hrules,
    wellFormed_arrayItem (by decide) houtputs, by simp⟩

/-! ### Depth and size -/

section

variable (library : ExternalLibrary)

theorem nesting_ruleItem (rule : Rule) : (ruleItem library rule).nesting = 2 := by
  rcases rule with ⟨_, ⟨_, _, _ | _ | _⟩, _⟩ | ⟨_, ⟨_, _, _ | _ | _⟩, _, _ | _⟩ |
    ⟨_, ⟨_, _, _ | _ | _⟩, _, _⟩ | _ <;> rfl

theorem nesting_outputItem_le (binding : OutputBinding) : (outputItem binding).nesting ≤ 2 := by
  cases binding <;> exact Nat.le_of_ble_eq_true rfl

end

/-- The brackets and the commas of entries, with commas between them. -/
def separated (entries : List ℕ) : ℕ := entries.length - 1 + entries.sum

namespace Rule

/-- The brackets and the commas that the serializer writes for a rule. -/
def structuralElements : Rule → ℕ
  | .state _ => 7
  | .sampledState rule => if rule.releaseThreshold.isSome then 8 else 7
  | .event _ => 8
  | .range _ => 10

end Rule

namespace OutputBinding

def structuralElements : OutputBinding → ℕ
  | .ledEffect _ => 4
  | .ledTransient _ => 12
  | .ledSolid _ => 11
  | .ledFill _ => 11

end OutputBinding

/-- **The structural elements** of the canonical text of a model. -/
def structuralElements (config : ControllerConfig) : ℕ :=
  7 + (if config.pixelCount ≠ kPixelCountDefault then 3 else 0) +
    (separated (config.actions.map fun _ => 1) +
      (separated (config.rules.map Rule.structuralElements) +
        separated (config.outputs.map OutputBinding.structuralElements)))

theorem elements_objectItem (key : String) (members : List Json.Item) :
    (objectItem key members).elements = 1 + separated (members.map Json.Item.elements) := by
  rw [Items.elements_alone, objectItem]
  simp only [Items.elements_ofList, Kind.brackets, separated, List.length_map]

theorem elements_stringItem (key : String) (value : Bytes) :
    (stringItem key value).elements = 0 := rfl

theorem elements_numberItem (key : String) (token : Bytes) :
    (numberItem key token).elements = 0 := rfl

variable (library : ExternalLibrary)

theorem elements_operandItem (operand : Operand) : (operandItem library operand).elements = 0 := by
  cases operand <;> rfl

theorem elements_ruleItem (rule : Rule) :
    (ruleItem library rule).elements = rule.structuralElements := by
  rw [ruleItem, elements_objectItem]
  rcases rule with rule | ⟨action, condition, freshness, _ | release⟩ | rule | rule <;>
  · simp only [ruleMembers, conditionItems, releaseItems, rangeItem, enumItem, floatItem,
      elements_objectItem, elements_stringItem, elements_numberItem, elements_operandItem,
      List.map_append, List.map_cons, List.map_nil]
    rfl

theorem elements_outputItem (binding : OutputBinding) :
    (outputItem binding).elements = binding.structuralElements := by
  rw [outputItem, elements_objectItem]
  cases binding <;>
  · simp only [outputMembers, zoneItem, colorItem, enumItem, integerItem, elements_objectItem,
      elements_stringItem, elements_numberItem, List.map_cons, List.map_nil]
    rfl

theorem elements_arrayItem {Entry : Type} {key : String} {item : Entry → Json.Item}
    {weight : Entry → ℕ} (h : ∀ entry, (item entry).elements = weight entry)
    (entries : List Entry) :
    (arrayItem key (entries.map item)).elements = 1 + separated (entries.map weight) := by
  have hweights : (entries.map item).map Json.Item.elements = entries.map weight := by
    rw [List.map_map]
    exact List.map_congr_left fun entry _ => h entry
  rw [Items.elements_alone, arrayItem]
  simp only [Items.elements_ofList, hweights, Kind.brackets, separated, List.length_map]

theorem elements_actionItem (action : Action) :
    (actionItem action).elements = (fun _ => 1) action := rfl

theorem elements_documentItem (config : ControllerConfig) :
    (documentItem library config).elements true = structuralElements config := by
  change (objectItem "" (documentMembers library config)).elements = _
  rw [Items.elements_alone, objectItem]
  simp only [Kind.brackets, Items.elements_ofList, documentMembers, List.map_append,
    List.sum_append, List.length_append, List.map_cons, List.map_nil, List.sum_cons, List.sum_nil,
    List.length_cons, List.length_nil, elements_arrayItem (elements_ruleItem library),
    elements_arrayItem elements_outputItem, elements_arrayItem elements_actionItem]
  have hversion : (integerItem "version" config.version).elements = 0 := rfl
  have hsinks : (sinkItems config.pixelCount).length +
      ((sinkItems config.pixelCount).map Json.Item.elements).sum =
        if config.pixelCount ≠ kPixelCountDefault then 3 else 0 := by
    unfold sinkItems
    split <;> rfl
  rw [hversion, structuralElements, ← hsinks]
  omega

/-- The canonical text is at most four levels deep. -/
theorem nesting_documentItem (config : ControllerConfig) :
    (documentItem library config).nesting ≤ 4 := by
  have harray : ∀ {key : String} {entries : List Json.Item},
      (∀ entry ∈ entries, entry.nesting ≤ 2) → (arrayItem key entries).nesting ≤ 3 := by
    intro key entries h
    have hentries := Items.nesting_ofList_le h
    change max (1 + (Items.ofList entries).nesting) 0 ≤ 3
    omega
  have hmembers : ∀ member ∈ documentMembers library config, member.nesting ≤ 3 := by
    simp only [documentMembers, List.forall_mem_append, List.forall_mem_cons]
    refine ⟨⟨⟨Nat.le_of_ble_eq_true rfl, by simp⟩, ?_⟩, harray ?_, harray ?_, harray ?_, by simp⟩
    · unfold sinkItems
      split
      · exact List.forall_mem_singleton.mpr (Nat.le_of_ble_eq_true rfl)
      · exact fun member hmember => absurd hmember List.not_mem_nil
    · exact List.forall_mem_map.mpr fun action _ => Nat.le_of_ble_eq_true rfl
    · exact List.forall_mem_map.mpr fun rule _ => (nesting_ruleItem library rule).le
    · exact List.forall_mem_map.mpr fun output _ => nesting_outputItem_le output
  have hinner := Items.nesting_ofList_le hmembers
  change max (1 + (Items.ofList (documentMembers library config)).nesting) 0 ≤ 4
  omega

end AccessoryController.Persisted
