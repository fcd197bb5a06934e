import AccessoryController.ControllerConfig.Persisted.JsonLoader

/-!
# The canonical serializer

The deterministic JSON text of a validated model. A function below gives the bytes that its source
function appends. The text is the text of a document of JSON items, which is what the loader's
proofs work on.

## Main definitions

* `serializeControllerConfig`: the canonical text of a model
* `documentItem`: its items

## Main results

* `serializeControllerConfig_eq`: the canonical text is the text of the items
-/

open AccessoryController.ControllerConfig (Bytes)

namespace AccessoryController.Persisted

open ActionEngine (NumericRange)
open Json (Item Items Kind colon comma quote)

/-! ### What the source appends -/

def hexDigit (n : ℕ) : UInt8 := (ascii "0123456789abcdef").getD n 0

/-- The spelling of one character of a string. -/
def escapeByte (c : UInt8) : Bytes :=
  if c = 34 then ascii "\\\""
  else if c = 92 then ascii "\\\\"
  else if c = 8 then ascii "\\b"
  else if c = 12 then ascii "\\f"
  else if c = 10 then ascii "\\n"
  else if c = 13 then ascii "\\r"
  else if c = 9 then ascii "\\t"
  else if c < 32 then ascii "\\u00" ++ [hexDigit (c.toNat / 16), hexDigit (c.toNat % 16)]
  else [c]

def appendJsonString (value : Bytes) : Bytes := [34] ++ value.flatMap escapeByte ++ [34]

/-- A text that does not fit the buffer of 32 bytes is left out. -/
def appendFloat (library : ExternalLibrary) (value : Binary32) : Bytes :=
  let text := library.formatFloat value
  if 0 < text.length ∧ text.length < 32 then text else []

def appendEnum {Enum : Type} [Names Enum] [DecidableEq Enum] (value : Enum) : Bytes :=
  appendJsonString ((nameOf value).getD [])

section

variable (library : ExternalLibrary)

def appendOperand (operand : Operand) : Bytes :=
  ascii "\x7b" ++
    (match operand with
    | .boolean value => ascii "\"boolean\":" ++ if value then ascii "true" else ascii "false"
    | .number value => ascii "\"number\":" ++ appendFloat library value
    | .choice key => ascii "\"choice\":" ++ appendJsonString key) ++
    ascii "\x7d"

def appendCondition (condition : Condition) : Bytes :=
  ascii "\"signal_key\":" ++ appendJsonString condition.signalKey ++
    ascii ",\"comparison\":" ++ appendEnum condition.comparison ++
    ascii ",\"operand\":" ++ appendOperand library condition.operand

def appendNumericRange (range : NumericRange) : Bytes :=
  ascii "\x7b\"from\":" ++ appendFloat library range.fromBound ++
    ascii ",\"to\":" ++ appendFloat library range.toBound ++ ascii "\x7d"

def appendRule (rule : Rule) : Bytes :=
  ascii "\x7b" ++
    (match rule with
    | .state value =>
      ascii "\"type\":\"state\",\"action\":" ++ appendJsonString value.action ++ ascii "," ++
        appendCondition library value.condition ++
        ascii ",\"freshness\":" ++ appendEnum value.freshness
    | .sampledState value =>
      ascii "\"type\":\"sampled_state\",\"action\":" ++ appendJsonString value.action ++
        ascii "," ++ appendCondition library value.condition ++
        (match value.releaseThreshold with
        | some release => ascii ",\"release_threshold\":" ++ appendFloat library release
        | none => []) ++
        ascii ",\"freshness\":" ++ appendEnum value.freshness
    | .event value =>
      ascii "\"type\":\"event\",\"action\":" ++ appendJsonString value.action ++ ascii "," ++
        appendCondition library value.condition ++
        ascii ",\"edge\":" ++ appendEnum value.edge ++
        ascii ",\"freshness\":" ++ appendEnum value.freshness
    | .range value =>
      ascii "\"type\":\"range\",\"action\":" ++ appendJsonString value.action ++
        ascii ",\"signal_key\":" ++ appendJsonString value.signalKey ++
        ascii ",\"input\":" ++ appendNumericRange library value.input ++
        ascii ",\"output\":" ++ appendNumericRange library value.output ++
        ascii ",\"freshness\":" ++ appendEnum value.freshness) ++
    ascii "\x7d"

end

/-- The zone and the color of an output. -/
def appendZoneAndColor (zone : LedZone) (color : Rgb) : Bytes :=
  ascii ",\"zone\":\x7b\"start\":" ++ integerText zone.start ++
    ascii ",\"length\":" ++ integerText zone.length ++
    ascii ",\"direction\":" ++ appendEnum zone.direction ++
    ascii "\x7d,\"color\":\x7b\"red\":" ++ integerText color.red ++
    ascii ",\"green\":" ++ integerText color.green ++
    ascii ",\"blue\":" ++ integerText color.blue ++ ascii "\x7d"

def appendOutputBinding (binding : OutputBinding) : Bytes :=
  ascii "\x7b\"type\":" ++
    (match binding with
    | .ledEffect value =>
      ascii "\"led_effect\",\"action\":" ++ appendJsonString value.action ++
        ascii ",\"effect\":" ++ appendEnum value.effect ++
        ascii ",\"priority\":" ++ integerText value.priority
    | .ledTransient value =>
      ascii "\"led_transient\",\"action\":" ++ appendJsonString value.action ++
        appendZoneAndColor value.zone value.color ++
        ascii ",\"duration_ms\":" ++ integerText value.durationMs ++
        ascii ",\"priority\":" ++ integerText value.priority
    | .ledSolid value =>
      ascii "\"led_solid\",\"action\":" ++ appendJsonString value.action ++
        appendZoneAndColor value.zone value.color ++
        ascii ",\"priority\":" ++ integerText value.priority
    | .ledFill value =>
      ascii "\"led_fill\",\"action\":" ++ appendJsonString value.action ++
        appendZoneAndColor value.zone value.color ++
        ascii ",\"priority\":" ++ integerText value.priority) ++
    ascii "\x7d"

/-- The texts of a list with commas between them. -/
def appendEntries {Entry : Type} (append : Entry → Bytes) (entries : List Entry) : Bytes :=
  (ascii ",").intercalate (entries.map append)

def appendAction (action : Action) : Bytes :=
  ascii "\x7b\"name\":" ++ appendJsonString action.name ++ ascii "\x7d"

def serializeControllerConfig (library : ExternalLibrary) (config : ControllerConfig) : Bytes :=
  ascii "\x7b\"version\":" ++ integerText config.version ++
    (if config.pixelCount ≠ kPixelCountDefault then
      ascii ",\"sinks\":\x7b\"local_argb\":\x7b\"pixel_count\":" ++
        integerText config.pixelCount ++ ascii "\x7d\x7d"
    else []) ++
    ascii ",\"actions\":[" ++ appendEntries appendAction config.actions ++
    ascii "],\"rules\":[" ++ appendEntries (appendRule library) config.rules ++
    ascii "],\"outputs\":[" ++ appendEntries appendOutputBinding config.outputs ++
    ascii "]\x7d"

/-! ### The items of a document -/

def stringItem (key : String) (value : Bytes) : Item :=
  { key := ascii key, kind := .string (value.flatMap escapeByte) value }

def enumItem (key : String) {Enum : Type} [Names Enum] [DecidableEq Enum] (value : Enum) :
    Item :=
  stringItem key ((nameOf value).getD [])

def numberItem (key : String) (token : Bytes) : Item :=
  { key := ascii key, kind := .number token }

def integerItem (key : String) (value : ℤ) : Item := numberItem key (integerText value)

def objectItem (key : String) (members : List Item) : Item :=
  { key := ascii key, kind := .object, inner := .ofList members }

def arrayItem (key : String) (entries : List Item) : Item :=
  { key := ascii key, kind := .array, inner := .ofList entries }

section

variable (library : ExternalLibrary)

def floatItem (key : String) (value : Binary32) : Item :=
  numberItem key (appendFloat library value)

def operandItem : Operand → Item
  | .boolean value => { key := ascii "boolean", kind := .boolean value }
  | .number value => floatItem library "number" value
  | .choice key => stringItem "choice" key

def conditionItems (condition : Condition) : List Item :=
  [stringItem "signal_key" condition.signalKey, enumItem "comparison" condition.comparison,
    objectItem "operand" [operandItem library condition.operand]]

def rangeItem (key : String) (range : NumericRange) : Item :=
  objectItem key [floatItem library "from" range.fromBound, floatItem library "to" range.toBound]

def releaseItems : Option Binary32 → List Item
  | some release => [floatItem library "release_threshold" release]
  | none => []

def ruleMembers : Rule → List Item
  | .state rule =>
    [stringItem "type" (ascii "state"), stringItem "action" rule.action] ++
      conditionItems library rule.condition ++ [enumItem "freshness" rule.freshness]
  | .sampledState rule =>
    [stringItem "type" (ascii "sampled_state"), stringItem "action" rule.action] ++
      conditionItems library rule.condition ++ releaseItems library rule.releaseThreshold ++
      [enumItem "freshness" rule.freshness]
  | .event rule =>
    [stringItem "type" (ascii "event"), stringItem "action" rule.action] ++
      conditionItems library rule.condition ++
      [enumItem "edge" rule.edge, enumItem "freshness" rule.freshness]
  | .range rule =>
    [stringItem "type" (ascii "range"), stringItem "action" rule.action,
      stringItem "signal_key" rule.signalKey, rangeItem library "input" rule.input,
      rangeItem library "output" rule.output, enumItem "freshness" rule.freshness]

def ruleItem (rule : Rule) : Item := objectItem "" (ruleMembers library rule)

end

def zoneItem (zone : LedZone) : Item :=
  objectItem "zone" [integerItem "start" zone.start, integerItem "length" zone.length,
    enumItem "direction" zone.direction]

def colorItem (color : Rgb) : Item :=
  objectItem "color" [integerItem "red" color.red, integerItem "green" color.green,
    integerItem "blue" color.blue]

def outputMembers : OutputBinding → List Item
  | .ledEffect binding =>
    [stringItem "type" (ascii "led_effect"), stringItem "action" binding.action,
      enumItem "effect" binding.effect, integerItem "priority" binding.priority]
  | .ledTransient binding =>
    [stringItem "type" (ascii "led_transient"), stringItem "action" binding.action,
      zoneItem binding.zone, colorItem binding.color,
      integerItem "duration_ms" binding.durationMs, integerItem "priority" binding.priority]
  | .ledSolid binding =>
    [stringItem "type" (ascii "led_solid"), stringItem "action" binding.action,
      zoneItem binding.zone, colorItem binding.color, integerItem "priority" binding.priority]
  | .ledFill binding =>
    [stringItem "type" (ascii "led_fill"), stringItem "action" binding.action,
      zoneItem binding.zone, colorItem binding.color, integerItem "priority" binding.priority]

def outputItem (binding : OutputBinding) : Item := objectItem "" (outputMembers binding)

def actionItem (action : Action) : Item := objectItem "" [stringItem "name" action.name]

/-- The strip setting is written out unless it is the default. -/
def sinkItems (pixelCount : ℤ) : List Item :=
  if pixelCount ≠ kPixelCountDefault then
    [objectItem "sinks" [objectItem "local_argb" [integerItem "pixel_count" pixelCount]]]
  else []

def documentMembers (library : ExternalLibrary) (config : ControllerConfig) : List Item :=
  [integerItem "version" config.version] ++ sinkItems config.pixelCount ++
    [arrayItem "actions" (config.actions.map actionItem),
      arrayItem "rules" (config.rules.map (ruleItem library)),
      arrayItem "outputs" (config.outputs.map outputItem)]

def documentItem (library : ExternalLibrary) (config : ControllerConfig) : Items :=
  .ofList [objectItem "" (documentMembers library config)]

/-! ### The text of the items -/

def separator (first : Bool) : Bytes := if first then [] else [44]

/-- A key and its colon. -/
def keyText (keyed : Bool) (key : String) : Bytes :=
  if keyed then 34 :: (ascii key ++ [34, 58]) else []

section

variable (key : String) (rest : List Item) (keyed first : Bool)

theorem text_stringItem (value : Bytes) :
    (Items.ofList (stringItem key value :: rest)).text keyed first =
      separator first ++ (keyText keyed key ++
        (appendJsonString value ++ (Items.ofList rest).text keyed false)) := by
  simp [Items.ofList, Items.text, stringItem, Kind.opening, Kind.closing,
    appendJsonString, separator, keyText, quote, comma, colon]

theorem text_numberItem (token : Bytes) :
    (Items.ofList (numberItem key token :: rest)).text keyed first =
      separator first ++ (keyText keyed key ++
        (token ++ (Items.ofList rest).text keyed false)) := by
  simp [Items.ofList, Items.text, numberItem, Kind.opening, Kind.closing,
    separator, keyText, quote, comma, colon]

theorem text_objectItem (members : List Item) :
    (Items.ofList (objectItem key members :: rest)).text keyed first =
      separator first ++ (keyText keyed key ++
        (ascii "\x7b" ++ ((Items.ofList members).text true true ++
          (ascii "\x7d" ++ (Items.ofList rest).text keyed false)))) := by
  have hopen : ascii "\x7b" = [123] := by decide
  have hclose : ascii "\x7d" = [125] := by decide
  simp [Items.ofList, Items.text, objectItem, Kind.opening, Kind.closing,
    Kind.isObject, separator, keyText, quote, comma, colon, hopen, hclose]

theorem text_arrayItem (entries : List Item) :
    (Items.ofList (arrayItem key entries :: rest)).text keyed first =
      separator first ++ (keyText keyed key ++
        (ascii "[" ++ ((Items.ofList entries).text false true ++
          (ascii "]" ++ (Items.ofList rest).text keyed false)))) := by
  have hopen : ascii "[" = [91] := by decide
  have hclose : ascii "]" = [93] := by decide
  simp [Items.ofList, Items.text, arrayItem, Kind.opening, Kind.closing,
    Kind.isObject, separator, keyText, quote, comma, colon, hopen, hclose]

theorem text_nil : (Items.ofList []).text keyed first = [] := rfl

end

/-- The text of an action among the entries of its list. -/
theorem text_actionItem (action : Action) (rest : List Item) (first : Bool) :
    (Items.ofList (actionItem action :: rest)).text false first =
      separator first ++ (appendAction action ++ (Items.ofList rest).text false false) := by
  simp only [actionItem, appendAction, text_objectItem, text_stringItem, text_nil,
    List.append_assoc]
  rfl

section

variable (library : ExternalLibrary)

theorem text_conditionItems (condition : Condition) (rest : List Item) :
    (Items.ofList (conditionItems library condition ++ rest)).text true false =
      ascii "," ++ (appendCondition library condition ++
        (Items.ofList rest).text true false) := by
  obtain ⟨signalKey, comparison, operand⟩ := condition
  simp only [conditionItems, appendCondition, appendOperand, enumItem, appendEnum,
    List.cons_append, List.nil_append, text_objectItem, text_stringItem, List.append_assoc]
  cases operand with
  | boolean value => cases value <;> rfl
  | number value =>
    simp only [operandItem, floatItem, text_numberItem, text_nil, List.append_assoc]
    rfl
  | choice key =>
    simp only [operandItem, text_stringItem, text_nil, List.append_assoc]
    rfl

theorem text_ruleItem (rule : Rule) (rest : List Item) (first : Bool) :
    (Items.ofList (ruleItem library rule :: rest)).text false first =
      separator first ++ (appendRule library rule ++
        (Items.ofList rest).text false false) := by
  cases rule with
  | state value =>
    simp only [ruleItem, ruleMembers, appendRule, enumItem, appendEnum, text_objectItem,
      text_stringItem, text_conditionItems, text_nil, List.cons_append, List.nil_append,
      List.append_assoc]
    rfl
  | sampledState value =>
    cases hrelease : value.releaseThreshold <;>
    · simp only [ruleItem, ruleMembers, appendRule, hrelease, releaseItems, floatItem, enumItem,
        appendEnum, text_objectItem, text_stringItem, text_numberItem, text_conditionItems,
        text_nil, List.cons_append, List.nil_append, List.append_assoc]
      rfl
  | event value =>
    simp only [ruleItem, ruleMembers, appendRule, enumItem, appendEnum, text_objectItem,
      text_stringItem, text_conditionItems, text_nil, List.cons_append, List.nil_append,
      List.append_assoc]
    rfl
  | range value =>
    simp only [ruleItem, ruleMembers, appendRule, rangeItem, appendNumericRange, floatItem,
      enumItem, appendEnum, text_objectItem, text_stringItem, text_numberItem, text_nil,
      List.append_assoc]
    rfl

end

theorem text_outputItem (binding : OutputBinding) (rest : List Item) (first : Bool) :
    (Items.ofList (outputItem binding :: rest)).text false first =
      separator first ++ (appendOutputBinding binding ++
        (Items.ofList rest).text false false) := by
  cases binding <;>
  · simp only [outputItem, outputMembers, appendOutputBinding, zoneItem, colorItem,
      appendZoneAndColor, integerItem, enumItem, appendEnum, text_objectItem, text_stringItem,
      text_numberItem, text_nil, List.append_assoc]
    rfl

/-- Entries stand with commas between them. -/
theorem text_entries {Entry : Type} {item : Entry → Item} {append : Entry → Bytes}
    (hitem : ∀ entry rest first, (Items.ofList (item entry :: rest)).text false first =
      separator first ++ (append entry ++ (Items.ofList rest).text false false))
    (entries : List Entry) :
    (Items.ofList (entries.map item)).text false true = appendEntries append entries := by
  have hlater : ∀ entries : List Entry,
      (Items.ofList (entries.map item)).text false false =
        entries.flatMap fun entry => [44] ++ append entry := by
    intro entries
    induction entries with
    | nil => rfl
    | cons entry entries ih =>
      rw [List.map_cons, hitem, ih, List.flatMap_cons, List.append_assoc]
      rfl
  have hcomma : ascii "," = [44] := by decide
  cases entries with
  | nil => rfl
  | cons entry entries =>
    rw [List.map_cons, hitem, hlater, appendEntries, hcomma]
    induction entries generalizing entry with
    | nil => rfl
    | cons second entries ih =>
      rw [List.map_cons, List.map_cons, List.intercalate_cons_cons, ← List.map_cons, ← ih,
        List.flatMap_cons, List.append_assoc, List.append_assoc]
      rfl

/-- **The canonical text** is the text of the items. -/
theorem serializeControllerConfig_eq (library : ExternalLibrary) (config : ControllerConfig) :
    serializeControllerConfig library config = (documentItem library config).text false true := by
  have hactions := text_entries text_actionItem config.actions
  have hrules := text_entries (text_ruleItem library) config.rules
  have houtputs := text_entries text_outputItem config.outputs
  unfold serializeControllerConfig documentItem documentMembers sinkItems
  by_cases hpixels : config.pixelCount ≠ kPixelCountDefault
  · rw [if_pos hpixels, if_pos hpixels]
    simp only [integerItem, text_objectItem, text_arrayItem, text_numberItem, text_nil, hactions,
      hrules, houtputs, List.cons_append, List.nil_append, List.append_assoc]
    rfl
  · rw [if_neg hpixels, if_neg hpixels]
    simp only [integerItem, text_objectItem, text_arrayItem, text_numberItem, text_nil, hactions,
      hrules, houtputs, List.cons_append, List.nil_append, List.append_assoc]
    rfl

end AccessoryController.Persisted
