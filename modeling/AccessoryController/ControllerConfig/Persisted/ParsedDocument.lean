import AccessoryController.ControllerConfig.Persisted.DecimalText
import AccessoryController.ControllerConfig.Persisted.JsonSerializer
import AccessoryController.ControllerConfig.Persisted.TextScan

/-!
# Reading a canonical document back

The loader on the tree of a canonical document. Every function of the loader returns what the
serializer wrote, as long as strings have no NUL, numbers are finite and integers are small.

## Main definitions

* `Readable`: what the serializer can write and the loader can read

## Main results

* `parseRule_ruleNode`, `parseOutput_outputNode`: the entries of a document
-/

open AccessoryController.ControllerConfig (Bytes)

namespace AccessoryController.Persisted

open ActionEngine (NumericRange)
open Json (Items Kind)

/-! ### Persisted names -/

/-- The names of the table differ, and none has a NUL. -/
class LawfulNames (Enum : Type) [Names Enum] : Prop where
  distinct : ((Names.table : List (Enum × Bytes)).map Prod.snd).Nodup
  nulFree : ∀ entry ∈ (Names.table : List (Enum × Bytes)), 0 ∉ entry.2

instance : LawfulNames RuleType := ⟨by decide, by decide⟩

instance : LawfulNames OutputType := ⟨by decide, by decide⟩

instance : LawfulNames ActionEngine.Comparison := ⟨by decide, by decide⟩

instance : LawfulNames ActionEngine.FreshnessRequirement := ⟨by decide, by decide⟩

instance : LawfulNames ActionEngine.EventEdge := ⟨by decide, by decide⟩

instance : LawfulNames LocalArgbActions.LedEffect := ⟨by decide, by decide⟩

instance : LawfulNames LocalArgb.FillDirection := ⟨by decide, by decide⟩

section

variable {Enum : Type} [Names Enum] [DecidableEq Enum]

/-- The table names the value. -/
def Named (value : Enum) : Prop := (nameOf value).isSome = true

theorem mem_table_of_nameOf {value : Enum} {name : Bytes} (h : nameOf value = some name) :
    (value, name) ∈ (Names.table : List (Enum × Bytes)) := by
  obtain ⟨⟨value', name'⟩, found, rfl⟩ := Option.map_eq_some_iff.mp h
  obtain rfl : value' = value := by simpa using List.find?_some found
  exact List.mem_of_find?_eq_some found

variable [LawfulNames Enum]

/-- What is written for a value has no NUL. -/
theorem nulFree_nameOf (value : Enum) : 0 ∉ (nameOf value).getD [] := by
  cases name : nameOf value with
  | none => exact List.not_mem_nil
  | some text => exact LawfulNames.nulFree _ (mem_table_of_nameOf name)

/-- A name is read as the value that it was written for. -/
theorem parseName_nameOf {value : Enum} (named : Named value) :
    parseName ((nameOf value).getD []) = some value := by
  obtain ⟨text, name⟩ := Option.isSome_iff_exists.mp named
  have listed := mem_table_of_nameOf name
  have found : ((Names.table : List (Enum × Bytes)).find? fun entry => entry.2 = text).isSome :=
    List.find?_isSome.mpr ⟨_, listed, by simp⟩
  obtain ⟨entry, hentry⟩ := Option.isSome_iff_exists.mp found
  have same : entry.2 = text := by simpa using List.find?_some hentry
  have only := List.inj_on_of_nodup_map LawfulNames.distinct
    (List.mem_of_find?_eq_some hentry) listed same
  rw [name, Option.getD_some, parseName, hentry, only]
  rfl

end

/-! ### Values -/

theorem cString_of_notMem {text : Bytes} (h : 0 ∉ text) : cString text = text := by
  rw [cString, List.takeWhile_eq_self_iff]
  intro c hc
  rw [decide_eq_true_eq]
  rintro rfl
  exact h hc

/-- A C string has no NUL. -/
theorem notMem_cString (text : Bytes) : 0 ∉ cString text := fun h => by
  simpa using List.mem_takeWhile_imp h

section

variable {value : CJson} {path : Bytes}

theorem parseString_of_type {text : Bytes} (htype : value.type? = some (.string text))
    (hnul : 0 ∉ text) : parseString value path = .ok text := by
  rw [parseString, htype]
  exact congrArg Except.ok (cString_of_notMem hnul)

theorem parseEnum_of_type {Enum : Type} [Names Enum] [DecidableEq Enum] [LawfulNames Enum]
    {parsed : Enum} (named : Named parsed)
    (htype : value.type? = some (.string ((nameOf parsed).getD []))) :
    parseEnum Enum value path = .ok parsed := by
  simp only [parseEnum, parseString_of_type htype (nulFree_nameOf parsed), bind, Except.bind,
    parseName_nameOf named]
  rfl

theorem toInt64?_ofInt {n : ℤ} (hn : n.natAbs ≤ 2 ^ 53) : (Double.ofInt n).toInt64? = some n := by
  have hvalue : (if decide (n < 0) = true then -((n.natAbs : ℕ) : ℚ) else (n.natAbs : ℕ)) =
      ((n : ℤ) : ℚ) := by
    by_cases hneg : n < 0
    · rw [if_pos (decide_eq_true hneg)]
      have : ((n.natAbs : ℕ) : ℤ) = -n := by omega
      rw [← Int.cast_natCast, this, Int.cast_neg, neg_neg]
    · rw [if_neg (by simpa using hneg)]
      have : ((n.natAbs : ℕ) : ℤ) = n := by omega
      rw [← Int.cast_natCast, this]
  have hbounds : -2 ^ 63 ≤ n ∧ n < 2 ^ 63 := by omega
  simp only [Double.ofInt, Double.toInt64?, hvalue, Rat.den_intCast, Rat.num_intCast, hbounds,
    and_self, if_true]

variable {library : ExternalLibrary}

theorem parseInteger_of_type (hlibrary : library.Faithful) {n : ℤ} (hn : n.natAbs ≤ 2 ^ 53)
    (htype : value.type? = some (.number (library.strtod (integerText n)))) :
    parseInteger value path = .ok n := by
  simp only [parseInteger, htype, hlibrary.integers n hn, toInt64?_ofInt hn]
  rfl

theorem appendFloat_eq (hlibrary : library.Faithful) {x : Binary32} (hx : x.isFinite = true) :
    appendFloat library x = library.formatFloat x := by
  obtain ⟨hnumber, hlength, -, -⟩ := hlibrary.floats x hx
  obtain ⟨c, rest, hcons, -⟩ := hnumber.exists_cons
  have hpos : 0 < (library.formatFloat x).length := by rw [hcons]; exact Nat.succ_pos _
  rw [appendFloat, if_pos ⟨hpos, by omega⟩]

theorem parseFiniteNumber_of_type (hlibrary : library.Faithful) {x : Binary32}
    (hx : x.isFinite = true)
    (htype : value.type? = some (.number (library.strtod (appendFloat library x)))) :
    parseFiniteNumber value path = .ok x := by
  obtain ⟨-, -, hfinite, hround⟩ := hlibrary.floats x hx
  rw [parseFiniteNumber, htype, appendFloat_eq hlibrary hx]
  simp only [hfinite, hround, hx]
  rfl

end

/-! ### Fields -/

section

variable {object value : CJson} {name path : Bytes} {T : Type}

theorem parseField_of_type {type : CJsonType} {parse : CJson → Bytes → Parsed T} {parsed : T}
    (htype : (object.getObjectItem name).type? = some type)
    (hparse : parse (object.getObjectItem name) (childPath path name) = .ok parsed) :
    parseField object name path parse = .ok parsed := by
  unfold parseField requiredField
  cases hvalue : object.getObjectItem name with
  | nullptr =>
    rw [hvalue] at htype
    cases htype
  | node address string type child next =>
    rw [hvalue] at hparse
    exact hparse

theorem parseOptional_of_type {type : CJsonType} {default : T} {parse : CJson → Parsed T}
    (htype : value.type? = some type) : parseOptional value default parse = parse value := by
  cases value with
  | nullptr => cases htype
  | node address string type child next => rfl

end

/-! ### Rules -/

variable {object : CJson}

section

variable {library : ExternalLibrary} (hlibrary : library.Faithful) {place : List Bool → ℕ}
  {address : ℕ} {key path : Bytes} {next : CJson}

/-- The node of an object with its members. -/
def objectNode (library : ExternalLibrary) (address : ℕ) (key : Bytes) (place : List Bool → ℕ)
    (members : List Json.Item) (next : CJson) : CJson :=
  .node address key .object (.ofItems library.strtod place (.ofList members)) next

def Operand.Readable : Operand → Prop
  | .boolean _ => True
  | .number value => value.isFinite = true
  | .choice key => 0 ∉ key

theorem parseAction_actionItem {action : Action} (h : 0 ∉ action.name) :
    parseAction (objectNode library address key place [stringItem "name" action.name] next) path =
      .ok action := by
  have hname : parseField (objectNode library address key place [stringItem "name" action.name]
      next) (ascii "name") path parseString = .ok action.name :=
    parseField_of_type rfl (parseString_of_type rfl h)
  unfold parseAction
  rw [hname]
  rfl

include hlibrary

theorem parseOperand_operandItem {operand : Operand} (h : operand.Readable) :
    parseOperand (objectNode library address key place [operandItem library operand] next) path =
      .ok operand := by
  cases operand with
  | boolean value => rfl
  | number value =>
    have hnumber : ∀ {node : CJson} {path : Bytes},
        node.type? = some (.number (library.strtod (appendFloat library value))) →
        parseFiniteNumber node path = .ok value := fun htype =>
      parseFiniteNumber_of_type hlibrary h htype
    change (parseFiniteNumber (.node _ (ascii "number") _ _ _) _ >>= fun value =>
      pure (Operand.number value)) = _
    rw [hnumber rfl]
    rfl
  | choice text =>
    have hchoice : parseOperand (objectNode library address key place
        [operandItem library (.choice text)] next) path = .ok (.choice (cString text)) := rfl
    rw [hchoice, cString_of_notMem h]

def Condition.Readable (condition : Condition) : Prop :=
  0 ∉ condition.signalKey ∧ Named condition.comparison ∧ condition.operand.Readable

/-- The members of a condition, wherever they stand among others. -/
theorem parseCondition_of_fields {condition : Condition}
    (h : condition.Readable) (hsignal : (object.getObjectItem (ascii "signal_key")).type? =
      some (.string condition.signalKey))
    (hcomparison : (object.getObjectItem (ascii "comparison")).type? =
      some (.string ((nameOf condition.comparison).getD [])))
    (hoperand : object.getObjectItem (ascii "operand") = objectNode library address key place
      [operandItem library condition.operand] next) :
    parseCondition object path = .ok condition := by
  have hsignalField : parseField object (ascii "signal_key") path parseString =
      .ok condition.signalKey := parseField_of_type hsignal (parseString_of_type hsignal h.1)
  have hcomparisonField : parseField object (ascii "comparison") path (parseEnum _) =
      .ok condition.comparison :=
    parseField_of_type hcomparison (parseEnum_of_type h.2.1 hcomparison)
  have htype : (object.getObjectItem (ascii "operand")).type? = some .object := by
    rw [hoperand]
    rfl
  have hoperandField : parseField object (ascii "operand") path (fun operand operandPath => do
      requireObject operand operandPath
      parseOperand operand operandPath) = .ok condition.operand := by
    refine parseField_of_type htype ?_
    rw [requireObject, if_pos htype, hoperand, parseOperand_operandItem hlibrary h.2.2]
    rfl
  unfold parseCondition
  rw [hsignalField, hcomparisonField, hoperandField]
  rfl

omit hlibrary in
theorem parseFreshness_of_type {freshness : ActionEngine.FreshnessRequirement}
    (named : Named freshness) (htype : (object.getObjectItem (ascii "freshness")).type? =
      some (.string ((nameOf freshness).getD []))) :
    parseFreshness object path = .ok freshness := by
  unfold parseFreshness optionalField
  rw [parseOptional_of_type htype, parseEnum_of_type named htype]

theorem parseNumericRange_rangeItem {range : NumericRange}
    (hfrom : range.fromBound.isFinite = true) (hto : range.toBound.isFinite = true) :
    parseNumericRange (objectNode library address key place
        [floatItem library "from" range.fromBound, floatItem library "to" range.toBound] next)
      path = .ok range := by
  have hfields : ∀ {node node' : CJson} {path path' : Bytes},
      node.type? = some (.number (library.strtod (appendFloat library range.fromBound))) →
      node'.type? = some (.number (library.strtod (appendFloat library range.toBound))) →
      (do
        let fromBound ← parseFiniteNumber node path
        let toBound ← parseFiniteNumber node' path'
        return { fromBound := fromBound, toBound := toBound } : Parsed NumericRange) =
        .ok range := by
    intro node node' path path' htype htype'
    rw [parseFiniteNumber_of_type hlibrary hfrom htype,
      parseFiniteNumber_of_type hlibrary hto htype']
    rfl
  exact hfields rfl rfl

def Rule.Readable : Rule → Prop
  | .state rule => 0 ∉ rule.action ∧ Named rule.freshness ∧ rule.condition.Readable
  | .sampledState rule => 0 ∉ rule.action ∧ Named rule.freshness ∧ rule.condition.Readable ∧
    ∀ release ∈ rule.releaseThreshold, release.isFinite = true
  | .event rule => 0 ∉ rule.action ∧ Named rule.freshness ∧ rule.condition.Readable ∧
    Named rule.edge
  | .range rule => 0 ∉ rule.action ∧ Named rule.freshness ∧ 0 ∉ rule.signalKey ∧
    (rule.input.fromBound.isFinite = true ∧ rule.input.toBound.isFinite = true) ∧
    rule.output.fromBound.isFinite = true ∧ rule.output.toBound.isFinite = true

/-- The node of a rule. -/
def ruleNode (library : ExternalLibrary) (address : ℕ) (key : Bytes) (place : List Bool → ℕ)
    (rule : Rule) (next : CJson) : CJson :=
  objectNode library address key place (ruleMembers library rule) next

omit hlibrary in
/-- Every kind of rule has its action and its freshness among its members. -/
theorem parseField_action_ruleNode (rule : Rule) (h : 0 ∉ rule.action) :
    parseField (ruleNode library address key place rule next) (ascii "action") path parseString =
      .ok rule.action := by
  rcases rule with rule | ⟨_, _, _, _ | release⟩ | rule | rule <;>
    exact parseField_of_type rfl (parseString_of_type rfl h)

def Rule.freshness : Rule → ActionEngine.FreshnessRequirement
  | .state rule => rule.freshness
  | .sampledState rule => rule.freshness
  | .event rule => rule.freshness
  | .range rule => rule.freshness

omit hlibrary in
theorem parseFreshness_ruleNode (rule : Rule) (named : Named rule.freshness) :
    parseFreshness (ruleNode library address key place rule next) path = .ok rule.freshness := by
  rcases rule with rule | ⟨_, _, _, _ | release⟩ | rule | rule <;>
    exact parseFreshness_of_type named rfl

theorem parseStateRule_ruleNode {rule : StateRule} (h : (Rule.state rule).Readable) :
    parseStateRule (ruleNode library address key place (.state rule) next) path = .ok rule := by
  have hcondition : parseCondition (ruleNode library address key place (.state rule) next) path =
      .ok rule.condition := parseCondition_of_fields hlibrary h.2.2 rfl rfl rfl
  unfold parseStateRule
  rw [parseField_action_ruleNode (.state rule) h.1, parseFreshness_ruleNode (.state rule) h.2.1,
    hcondition]
  rfl

theorem parseSampledStateRule_ruleNode {rule : SampledStateRule}
    (h : (Rule.sampledState rule).Readable) :
    parseSampledStateRule (ruleNode library address key place (.sampledState rule) next) path =
      .ok rule := by
  obtain ⟨action, condition, freshness, release⟩ := rule
  obtain ⟨hnul, hnamed, hreadable, hfinite⟩ := h
  unfold parseSampledStateRule
  rw [parseField_action_ruleNode (.sampledState ⟨action, condition, freshness, release⟩) hnul,
    parseFreshness_ruleNode (.sampledState ⟨action, condition, freshness, release⟩) hnamed]
  -- the release threshold may be left out
  cases release with
  | none =>
    have hcondition : parseCondition (ruleNode library address key place
        (.sampledState ⟨action, condition, freshness, none⟩) next) path = .ok condition :=
      parseCondition_of_fields hlibrary hreadable rfl rfl rfl
    rw [hcondition]
    rfl
  | some threshold =>
    have hcondition : parseCondition (ruleNode library address key place
        (.sampledState ⟨action, condition, freshness, some threshold⟩) next) path =
        .ok condition := parseCondition_of_fields hlibrary hreadable rfl rfl rfl
    have hfield : ∀ {node : CJson} {path : Bytes},
        node.type? = some (.number (library.strtod (appendFloat library threshold))) →
        parseOptional node none (fun value => some <$> parseFiniteNumber value path) =
          .ok (some threshold) := by
      intro node path htype
      rw [parseOptional_of_type htype,
        parseFiniteNumber_of_type hlibrary (hfinite threshold rfl) htype]
      rfl
    have hrelease : parseOptional (optionalField (ruleNode library address key place
        (.sampledState ⟨action, condition, freshness, some threshold⟩) next)
        (ascii "release_threshold")) none (fun value => some <$> parseFiniteNumber value
          (childPath path (ascii "release_threshold"))) = .ok (some threshold) := hfield rfl
    rw [hcondition, hrelease]
    rfl

theorem parseEventRule_ruleNode {rule : EventRule} (h : (Rule.event rule).Readable) :
    parseEventRule (ruleNode library address key place (.event rule) next) path = .ok rule := by
  have hcondition : parseCondition (ruleNode library address key place (.event rule) next) path =
      .ok rule.condition := parseCondition_of_fields hlibrary h.2.2.1 rfl rfl rfl
  have hedge : parseField (ruleNode library address key place (.event rule) next)
      (ascii "edge") path (parseEnum _) = .ok rule.edge :=
    parseField_of_type rfl (parseEnum_of_type h.2.2.2 rfl)
  unfold parseEventRule
  rw [parseField_action_ruleNode (.event rule) h.1, parseFreshness_ruleNode (.event rule) h.2.1,
    hcondition, hedge]
  rfl

theorem parseRangeRule_ruleNode {rule : RangeRule} (h : (Rule.range rule).Readable) :
    parseRangeRule (ruleNode library address key place (.range rule) next) path = .ok rule := by
  obtain ⟨hnul, hnamed, hsignal, hinput, houtput⟩ := h
  have hsignalField : parseField (ruleNode library address key place (.range rule) next)
      (ascii "signal_key") path parseString = .ok rule.signalKey :=
    parseField_of_type rfl (parseString_of_type rfl hsignal)
  have hinputField : parseField (ruleNode library address key place (.range rule) next)
      (ascii "input") path parseNumericRange = .ok rule.input :=
    parseField_of_type rfl (parseNumericRange_rangeItem hlibrary hinput.1 hinput.2)
  have houtputField : parseField (ruleNode library address key place (.range rule) next)
      (ascii "output") path parseNumericRange = .ok rule.output :=
    parseField_of_type rfl (parseNumericRange_rangeItem hlibrary houtput.1 houtput.2)
  unfold parseRangeRule
  rw [parseField_action_ruleNode (.range rule) hnul, parseFreshness_ruleNode (.range rule) hnamed,
    hsignalField, hinputField, houtputField]
  rfl

/-- **A rule** is read back. -/
theorem parseRule_ruleNode {rule : Rule} (h : rule.Readable) :
    parseRule (ruleNode library address key place rule next) path = .ok rule := by
  cases rule with
  | state rule =>
    have hkind : parseRule (ruleNode library address key place (.state rule) next) path =
        parseStateRule (ruleNode library address key place (.state rule) next) path >>= fun rule =>
          pure (.state rule) := rfl
    rw [hkind, parseStateRule_ruleNode hlibrary h]
    rfl
  | sampledState rule =>
    have hkind : parseRule (ruleNode library address key place (.sampledState rule) next) path =
        parseSampledStateRule (ruleNode library address key place (.sampledState rule) next)
          path >>= fun rule => pure (.sampledState rule) := by
      obtain ⟨action, condition, freshness, _ | release⟩ := rule <;> rfl
    rw [hkind, parseSampledStateRule_ruleNode hlibrary h]
    rfl
  | event rule =>
    have hkind : parseRule (ruleNode library address key place (.event rule) next) path =
        parseEventRule (ruleNode library address key place (.event rule) next) path >>= fun rule =>
          pure (.event rule) := rfl
    rw [hkind, parseEventRule_ruleNode hlibrary h]
    rfl
  | range rule =>
    have hkind : parseRule (ruleNode library address key place (.range rule) next) path =
        parseRangeRule (ruleNode library address key place (.range rule) next) path >>= fun rule =>
          pure (.range rule) := rfl
    rw [hkind, parseRangeRule_ruleNode hlibrary h]
    rfl

/-! ### Outputs -/

/-- An integer that a double holds exactly. -/
def Small (n : ℤ) : Prop := n.natAbs ≤ 2 ^ 53

def LedZone.Readable (zone : LedZone) : Prop :=
  Small zone.start ∧ Small zone.length ∧ Named zone.direction

def Rgb.Readable (color : Rgb) : Prop := Small color.red ∧ Small color.green ∧ Small color.blue

def OutputBinding.Readable : OutputBinding → Prop
  | .ledEffect binding => 0 ∉ binding.action ∧ Named binding.effect ∧ Small binding.priority
  | .ledFill binding => 0 ∉ binding.action ∧ binding.zone.Readable ∧ binding.color.Readable ∧
    Small binding.priority
  | .ledTransient binding => 0 ∉ binding.action ∧ binding.zone.Readable ∧
    binding.color.Readable ∧ Small binding.priority ∧ Small binding.durationMs
  | .ledSolid binding => 0 ∉ binding.action ∧ binding.zone.Readable ∧ binding.color.Readable ∧
    Small binding.priority

theorem parseZone_zoneItem {zone : LedZone} (h : zone.Readable) :
    parseZone (objectNode library address key place [integerItem "start" zone.start,
      integerItem "length" zone.length, enumItem "direction" zone.direction] next) path =
      .ok zone := by
  have hfields : ∀ {node : CJson},
      (node.getObjectItem (ascii "start")).type? =
        some (.number (library.strtod (integerText zone.start))) →
      (node.getObjectItem (ascii "length")).type? =
        some (.number (library.strtod (integerText zone.length))) →
      (node.getObjectItem (ascii "direction")).type? =
        some (.string ((nameOf zone.direction).getD [])) →
      (do
        let start ← parseField node (ascii "start") path parseInteger
        let length ← parseField node (ascii "length") path parseInteger
        let direction ← parseField node (ascii "direction") path (parseEnum _)
        return { start := start, length := length, direction := direction } : Parsed LedZone) =
        .ok zone := by
    intro node hstart hlength hdirection
    rw [parseField_of_type hstart (parseInteger_of_type hlibrary h.1 hstart),
      parseField_of_type hlength (parseInteger_of_type hlibrary h.2.1 hlength),
      parseField_of_type hdirection (parseEnum_of_type h.2.2 hdirection)]
    rfl
  exact hfields rfl rfl rfl

theorem parseColor_colorItem {color : Rgb} (h : color.Readable) :
    parseColor (objectNode library address key place [integerItem "red" color.red,
      integerItem "green" color.green, integerItem "blue" color.blue] next) path = .ok color := by
  have hfields : ∀ {node : CJson},
      (node.getObjectItem (ascii "red")).type? =
        some (.number (library.strtod (integerText color.red))) →
      (node.getObjectItem (ascii "green")).type? =
        some (.number (library.strtod (integerText color.green))) →
      (node.getObjectItem (ascii "blue")).type? =
        some (.number (library.strtod (integerText color.blue))) →
      (do
        let red ← parseField node (ascii "red") path parseInteger
        let green ← parseField node (ascii "green") path parseInteger
        let blue ← parseField node (ascii "blue") path parseInteger
        return { red := red, green := green, blue := blue } : Parsed Rgb) = .ok color := by
    intro node hred hgreen hblue
    rw [parseField_of_type hred (parseInteger_of_type hlibrary h.1 hred),
      parseField_of_type hgreen (parseInteger_of_type hlibrary h.2.1 hgreen),
      parseField_of_type hblue (parseInteger_of_type hlibrary h.2.2 hblue)]
    rfl
  exact hfields rfl rfl rfl

theorem parsePriority_of_type {priority : ℤ} (h : Small priority)
    (htype : (object.getObjectItem (ascii "priority")).type? =
      some (.number (library.strtod (integerText priority)))) :
    parsePriority object path = .ok priority := by
  unfold parsePriority optionalField
  rw [parseOptional_of_type htype, parseInteger_of_type hlibrary h htype]

/-- The node of an output. -/
def outputNode (library : ExternalLibrary) (address : ℕ) (key : Bytes) (place : List Bool → ℕ)
    (binding : OutputBinding) (next : CJson) : CJson :=
  objectNode library address key place (outputMembers binding) next

omit hlibrary in
theorem parseField_action_outputNode (binding : OutputBinding) (h : 0 ∉ binding.action) :
    parseField (outputNode library address key place binding next) (ascii "action") path
      parseString = .ok binding.action := by
  cases binding <;> exact parseField_of_type rfl (parseString_of_type rfl h)

theorem parseZoneBinding_of_fields {zone : LedZone} {color : Rgb}
    {priority : ℤ} {action : Bytes}
    (haction : parseField object (ascii "action") path parseString = .ok action)
    (hpriority : parsePriority object path = .ok priority) {address' : ℕ} {key' : Bytes}
    {place' : List Bool → ℕ} {next' : CJson} (hzone : zone.Readable)
    (hzoneNode : object.getObjectItem (ascii "zone") = objectNode library address key place
      [integerItem "start" zone.start, integerItem "length" zone.length,
        enumItem "direction" zone.direction] next) (hcolor : color.Readable)
    (hcolorNode : object.getObjectItem (ascii "color") = objectNode library address' key' place'
      [integerItem "red" color.red, integerItem "green" color.green,
        integerItem "blue" color.blue] next') :
    parseZoneBinding object path = .ok ⟨action, zone, color, priority⟩ := by
  have hzoneField : parseField object (ascii "zone") path parseZone = .ok zone := by
    refine parseField_of_type (by rw [hzoneNode]; rfl) ?_
    rw [hzoneNode, parseZone_zoneItem hlibrary hzone]
  have hcolorField : parseField object (ascii "color") path parseColor = .ok color := by
    refine parseField_of_type (by rw [hcolorNode]; rfl) ?_
    rw [hcolorNode, parseColor_colorItem hlibrary hcolor]
  unfold parseZoneBinding
  rw [haction, hpriority, hzoneField, hcolorField]
  rfl

/-- **An output** is read back, if its duration is. -/
theorem parseOutput_outputNode {root : CJson} {json : Bytes}
    {binding : OutputBinding} (h : binding.Readable)
    (hduration : ∀ transient, binding = .ledTransient transient → ∀ path,
      parseDuration ((outputNode library address key place binding next).getObjectItem
        (ascii "duration_ms")) root json path = .ok transient.durationMs) :
    parseOutput root json (outputNode library address key place binding next) path =
      .ok binding := by
  cases binding with
  | ledEffect binding =>
    have hpriority : parsePriority (outputNode library address key place (.ledEffect binding)
        next) path = .ok binding.priority := parsePriority_of_type hlibrary h.2.2 rfl
    have heffect : parseField (outputNode library address key place (.ledEffect binding) next)
        (ascii "effect") path (parseEnum _) = .ok binding.effect :=
      parseField_of_type rfl (parseEnum_of_type h.2.1 rfl)
    have hbody : parseLedEffect (outputNode library address key place (.ledEffect binding) next)
        path = .ok binding := by
      unfold parseLedEffect
      rw [parseField_action_outputNode (.ledEffect binding) h.1, hpriority, heffect]
      rfl
    have hkind : parseOutput root json (outputNode library address key place
        (.ledEffect binding) next) path =
        parseLedEffect (outputNode library address key place (.ledEffect binding) next) path >>=
          fun binding => pure (.ledEffect binding) := rfl
    rw [hkind, hbody]
    rfl
  | ledFill binding =>
    have hbody : parseZoneBinding (outputNode library address key place (.ledFill binding) next)
        path = .ok ⟨binding.action, binding.zone, binding.color, binding.priority⟩ :=
      parseZoneBinding_of_fields hlibrary
        (parseField_action_outputNode (.ledFill binding) h.1)
        (parsePriority_of_type hlibrary h.2.2.2 rfl) h.2.1 rfl h.2.2.1 rfl
    have hkind : parseOutput root json (outputNode library address key place
        (.ledFill binding) next) path =
        parseZoneBinding (outputNode library address key place (.ledFill binding) next) path >>=
          fun b => pure (.ledFill ⟨b.action, b.zone, b.color, b.priority⟩) := rfl
    rw [hkind, hbody]
    rfl
  | ledSolid binding =>
    have hbody : parseZoneBinding (outputNode library address key place (.ledSolid binding) next)
        path = .ok ⟨binding.action, binding.zone, binding.color, binding.priority⟩ :=
      parseZoneBinding_of_fields hlibrary
        (parseField_action_outputNode (.ledSolid binding) h.1)
        (parsePriority_of_type hlibrary h.2.2.2 rfl) h.2.1 rfl h.2.2.1 rfl
    have hkind : parseOutput root json (outputNode library address key place
        (.ledSolid binding) next) path =
        parseZoneBinding (outputNode library address key place (.ledSolid binding) next) path >>=
          fun b => pure (.ledSolid ⟨b.action, b.zone, b.color, b.priority⟩) := rfl
    rw [hkind, hbody]
    rfl
  | ledTransient binding =>
    have hbody : parseZoneBinding (outputNode library address key place (.ledTransient binding)
        next) path = .ok ⟨binding.action, binding.zone, binding.color, binding.priority⟩ :=
      parseZoneBinding_of_fields hlibrary
        (parseField_action_outputNode (.ledTransient binding) h.1)
        (parsePriority_of_type hlibrary h.2.2.2.1 rfl) h.2.1 rfl h.2.2.1 rfl
    have hfield : parseField (outputNode library address key place (.ledTransient binding) next)
        (ascii "duration_ms") path (fun value path => parseDuration value root json path) =
        .ok binding.durationMs := parseField_of_type rfl (hduration binding rfl _)
    have hkind : parseOutput root json (outputNode library address key place
        (.ledTransient binding) next) path =
        parseZoneBinding (outputNode library address key place (.ledTransient binding) next)
          path >>= fun b =>
            parseField (outputNode library address key place (.ledTransient binding) next)
              (ascii "duration_ms") path (fun value path => parseDuration value root json path) >>=
                fun duration =>
                  pure (.ledTransient ⟨b.action, b.zone, b.color, duration, b.priority⟩) := rfl
    rw [hkind, hbody]
    change parseField _ _ _ _ >>= _ = _
    rw [hfield]
    rfl

end

end AccessoryController.Persisted
