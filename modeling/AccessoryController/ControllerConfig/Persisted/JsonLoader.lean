import AccessoryController.ControllerConfig.Persisted.CJson
import AccessoryController.ControllerConfig.Persisted.Validation

/-!
# The canonical JSON loader

A bounded scan of the text, the external parser, strict fields, and validation. Every error names
the path of the field that it is about. A duration is read from its token in the text, since the
parser keeps numbers as doubles.

## Main definitions

* `preflightInput`: the limits on a text before it is parsed
* `numberIndex`, `numberToken`: the token of a number node
* `parseControllerConfig`: the loader
-/

open AccessoryController.ControllerConfig (Bytes)

namespace AccessoryController.Persisted

open ActionEngine (NumericRange)

/-! ### Diagnostics -/

inductive ConfigErrorCategory
  | parse | structural | semantic
  deriving DecidableEq, Repr

inductive ConfigErrorCode
  | malformedJson | embeddedNul | inputTooLarge | nestingLimitExceeded | rootTypeMismatch
  | missingField | unknownField | typeMismatch | invalidValue | schemaValidation
  | resourceExhausted
  deriving DecidableEq, Repr

def kMaxControllerConfigJsonBytes : ℕ := 16 * 1024
def kMaxControllerConfigJsonNodes : ℕ := 512

structure ConfigDiagnostic where
  category : ConfigErrorCategory
  code : ConfigErrorCode
  path : Bytes
  message : Bytes
  schemaError : ValidationError := .none
  index : ℕ := 0
  deriving DecidableEq, Repr

abbrev Parsed := Except ConfigDiagnostic

def structuralError {T : Type} (code : ConfigErrorCode) (path message : Bytes)
    (schemaError : ValidationError := .none) : Parsed T :=
  .error ⟨.structural, code, path, message, schemaError, 0⟩

def childPath (parent child : Bytes) : Bytes :=
  if parent = [] then child else parent ++ ascii "." ++ child

def indexedPath (parent : Bytes) (index : ℕ) : Bytes :=
  parent ++ ascii "[" ++ naturalText index ++ ascii "]"

def quoted (text : Bytes) : Bytes := ascii "'" ++ text ++ ascii "'"

/-! ### Fields -/

/-- The siblings from a node on have allowed names, each once; `prior` holds the names before. -/
def rejectUnknownAmong (path : Bytes) (allowed : List Bytes) : List Bytes → CJson → Parsed Unit
  | _, .nullptr => pure ()
  | prior, .node _ string _ _ next =>
    let name := cString string
    if name ∈ prior then
      structuralError .invalidValue (childPath path name)
        (ascii "duplicate configuration field " ++ quoted name)
    else if name ∉ allowed then
      structuralError .unknownField (childPath path name)
        (ascii "unknown configuration field " ++ quoted name)
    else rejectUnknownAmong path allowed (prior ++ [name]) next

def rejectUnknownFields (object : CJson) (path : Bytes) (allowed : List Bytes) : Parsed Unit :=
  rejectUnknownAmong path allowed [] object.child

def requiredField (object : CJson) (name path : Bytes) : Parsed CJson :=
  match object.getObjectItem name with
  | .nullptr => structuralError .missingField (childPath path name)
      (ascii "missing required field " ++ quoted name)
  | value => pure value

def optionalField (object : CJson) (name : Bytes) : CJson := object.getObjectItem name

def requireObject (value : CJson) (path : Bytes) : Parsed Unit :=
  if value.type? = some .object then pure ()
  else structuralError .typeMismatch path (ascii "expected an object at " ++ quoted path)

def requireArray (value : CJson) (path : Bytes) : Parsed Unit :=
  if value.type? = some .array then pure ()
  else structuralError .typeMismatch path (ascii "expected an array at " ++ quoted path)

/-- Reads an optional field, or keeps the default. -/
def parseOptional {T : Type} (field : CJson) (default : T) (parse : CJson → Parsed T) : Parsed T :=
  match field with
  | .nullptr => pure default
  | value => parse value

/-! ### Values -/

def parseString (value : CJson) (path : Bytes) : Parsed Bytes :=
  match value.type? with
  | some (.string valuestring) => pure (cString valuestring)
  | _ => structuralError .typeMismatch path (ascii "expected a string at " ++ quoted path)

def parseFiniteNumber (value : CJson) (path : Bytes) : Parsed Binary32 :=
  match value.type? with
  | some (.number number) =>
    if !number.isFinite || !number.toBinary32.isFinite then
      structuralError .invalidValue path
        (ascii "number at " ++ quoted path ++ ascii " must be finite") .invalidOperand
    else pure number.toBinary32
  | _ => structuralError .typeMismatch path (ascii "expected a number at " ++ quoted path)

def parseInteger (value : CJson) (path : Bytes) : Parsed ℤ :=
  match value.type? with
  | some (.number number) =>
    match number.toInt64? with
    | some n => pure n
    | none => structuralError .invalidValue path
        (ascii "value at " ++ quoted path ++ ascii " must be a finite integer")
  | _ => structuralError .typeMismatch path (ascii "expected an integer at " ++ quoted path)

def parseBool (value : CJson) (path : Bytes) : Parsed Bool :=
  match value.type? with
  | some (.boolean b) => pure b
  | _ => structuralError .typeMismatch path (ascii "expected a boolean at " ++ quoted path)

def parseEnum (Enum : Type) [Names Enum] (value : CJson) (path : Bytes) : Parsed Enum := do
  let name ← parseString value path
  match (parseName name : Option Enum) with
  | some parsed => pure parsed
  | none => structuralError .invalidValue path (ascii "unsupported enum value " ++ quoted name)

/-! ### Durations -/

/-- Whether the target is among the siblings from a node on or inside them, and the number nodes
before it. -/
def numberIndexAmong (target : ℕ) : CJson → ℕ → Bool × ℕ
  | .nullptr, index => (false, index)
  | .node address _ type child next, index =>
    if address = target then (true, index)
    else
      match numberIndexAmong target child (if type.isNumber then index + 1 else index) with
      | (true, found) => (true, found)
      | (false, seen) => numberIndexAmong target next seen

def numberIndex (root : CJson) (target : ℕ) : Bool × ℕ := numberIndexAmong target root 0

/-- Where the search for a token stands: outside strings, in a string, after a backslash in a
string, or in a number token that is passed over. -/
inductive TokenScan
  | outside | string | escape | number
  deriving DecidableEq, Repr

/-- What ends a number token. -/
def isDelimiter (c : UInt8) : Bool := c ∈ ascii ",]\x7d \t\r\n"

/-- The number token after that many others. -/
def numberTokenFrom : TokenScan → Bytes → ℕ → Bytes
  | _, [], _ => []
  | .string, c :: rest, number =>
    if c = 34 then numberTokenFrom .outside rest number
    else if c = 92 then numberTokenFrom .escape rest number
    else numberTokenFrom .string rest number
  | .escape, _ :: rest, number => numberTokenFrom .string rest number
  | .number, c :: rest, number =>
    if isDelimiter c then numberTokenFrom .outside rest number
    else numberTokenFrom .number rest number
  | .outside, c :: rest, number =>
    if c = 34 then numberTokenFrom .string rest number
    else if Json.isNumberStart c then
      match number with
      | 0 => (c :: rest).takeWhile fun c => !isDelimiter c
      | later + 1 => numberTokenFrom .number rest later
    else numberTokenFrom .outside rest number

theorem numberTokenFrom_plain {n : ℕ} (rest : Bytes) {c : UInt8} (hquote : c ≠ 34)
    (hbackslash : c ≠ 92) :
    numberTokenFrom .string (c :: rest) n = numberTokenFrom .string rest n := by
  simp [numberTokenFrom, hquote, hbackslash]

theorem numberTokenFrom_escape {n : ℕ} (rest : Bytes) (c : UInt8) :
    numberTokenFrom .string (Json.backslash :: c :: rest) n = numberTokenFrom .string rest n := by
  simp [numberTokenFrom, Json.backslash]

def numberToken (json : Bytes) (number : ℕ) : Bytes := numberTokenFrom .outside json number

def parseDuration (value root : CJson) (json path : Bytes) : Parsed ℤ :=
  match value with
  | .node address _ (.number _) _ _ =>
    match numberIndex root address with
    | (false, _) => structuralError .invalidValue path
        (ascii "duration_ms source number was not found in the parsed document") .invalidDuration
    | (true, index) =>
      match fromChars (numberToken json index) with
      | some (duration, []) => pure duration
      | _ => structuralError .invalidValue path
          (ascii "duration_ms must use an integer token in " ++ integerText kDurationMsMin ++
            ascii ".." ++ integerText kMaxTransientDurationMs) .invalidDuration
  | _ => structuralError .typeMismatch path (ascii "duration_ms must be an integer number")

/-! ### Rules -/

def parseOperand (object : CJson) (path : Bytes) : Parsed Operand := do
  rejectUnknownFields object path [ascii "boolean", ascii "number", ascii "choice"]
  match object.child, object.child.next with
  | .node address string type child next, .nullptr =>
    let value := CJson.node address string type child next
    let valuePath := childPath path value.name
    if value.name = ascii "boolean" then return .boolean (← parseBool value valuePath)
    else if value.name = ascii "number" then return .number (← parseFiniteNumber value valuePath)
    else return .choice (← parseString value valuePath)
  | _, _ =>
    structuralError .invalidValue path
      (ascii "operand must contain exactly one of boolean, number or choice")

def parseNumericRange (object : CJson) (path : Bytes) : Parsed NumericRange := do
  requireObject object path
  rejectUnknownFields object path [ascii "from", ascii "to"]
  let fromField ← requiredField object (ascii "from") path
  let toField ← requiredField object (ascii "to") path
  let fromBound ← parseFiniteNumber fromField (childPath path (ascii "from"))
  let toBound ← parseFiniteNumber toField (childPath path (ascii "to"))
  return { fromBound := fromBound, toBound := toBound }

/-- Reads a required field at its path. -/
def parseField {T : Type} (object : CJson) (name path : Bytes)
    (parse : CJson → Bytes → Parsed T) : Parsed T := do
  let value ← requiredField object name path
  parse value (childPath path name)

def parseCondition (object : CJson) (path : Bytes) : Parsed Condition := do
  let signalKey ← parseField object (ascii "signal_key") path parseString
  let comparison ← parseField object (ascii "comparison") path (parseEnum _)
  let operand ← parseField object (ascii "operand") path fun operand operandPath => do
    requireObject operand operandPath
    parseOperand operand operandPath
  return { signalKey := signalKey, comparison := comparison, operand := operand }

def parseFreshness (object : CJson) (path : Bytes) : Parsed ActionEngine.FreshnessRequirement :=
  parseOptional (optionalField object (ascii "freshness")) .fresh fun value =>
    parseEnum _ value (childPath path (ascii "freshness"))

def parseStateRule (object : CJson) (path : Bytes) : Parsed StateRule := do
  let action ← parseField object (ascii "action") path parseString
  let freshness ← parseFreshness object path
  let condition ← parseCondition object path
  return { action := action, condition := condition, freshness := freshness }

def parseSampledStateRule (object : CJson) (path : Bytes) : Parsed SampledStateRule := do
  let action ← parseField object (ascii "action") path parseString
  let freshness ← parseFreshness object path
  let condition ← parseCondition object path
  let release ← parseOptional (optionalField object (ascii "release_threshold")) none fun value =>
    some <$> parseFiniteNumber value (childPath path (ascii "release_threshold"))
  return { action := action, condition := condition, freshness := freshness,
           releaseThreshold := release }

def parseEventRule (object : CJson) (path : Bytes) : Parsed EventRule := do
  let action ← parseField object (ascii "action") path parseString
  let freshness ← parseFreshness object path
  let condition ← parseCondition object path
  let edge ← parseField object (ascii "edge") path (parseEnum _)
  return { action := action, condition := condition, edge := edge, freshness := freshness }

def parseRangeRule (object : CJson) (path : Bytes) : Parsed RangeRule := do
  let action ← parseField object (ascii "action") path parseString
  let freshness ← parseFreshness object path
  let signalKey ← parseField object (ascii "signal_key") path parseString
  let input ← parseField object (ascii "input") path parseNumericRange
  let output ← parseField object (ascii "output") path parseNumericRange
  return { action := action, signalKey := signalKey, input := input, output := output,
           freshness := freshness }

def parseRule (object : CJson) (path : Bytes) : Parsed Rule := do
  let kind ← parseField object (ascii "type") path (parseEnum RuleType)
  match kind with
  | .state =>
    rejectUnknownFields object path [ascii "type", ascii "action", ascii "signal_key",
      ascii "comparison", ascii "operand", ascii "freshness"]
    return .state (← parseStateRule object path)
  | .sampledState =>
    rejectUnknownFields object path [ascii "type", ascii "action", ascii "signal_key",
      ascii "comparison", ascii "operand", ascii "freshness", ascii "release_threshold"]
    return .sampledState (← parseSampledStateRule object path)
  | .event =>
    rejectUnknownFields object path [ascii "type", ascii "action", ascii "signal_key",
      ascii "comparison", ascii "operand", ascii "freshness", ascii "edge"]
    return .event (← parseEventRule object path)
  | .range =>
    rejectUnknownFields object path [ascii "type", ascii "action", ascii "signal_key",
      ascii "input", ascii "output", ascii "freshness"]
    return .range (← parseRangeRule object path)

/-! ### Actions and outputs -/

def parseAction (object : CJson) (path : Bytes) : Parsed Action := do
  rejectUnknownFields object path [ascii "name"]
  let name ← parseField object (ascii "name") path parseString
  return { name := name }

def parseZone (object : CJson) (path : Bytes) : Parsed LedZone := do
  requireObject object path
  rejectUnknownFields object path [ascii "start", ascii "length", ascii "direction"]
  let start ← parseField object (ascii "start") path parseInteger
  let length ← parseField object (ascii "length") path parseInteger
  let direction ← parseField object (ascii "direction") path (parseEnum _)
  return { start := start, length := length, direction := direction }

def parseColor (object : CJson) (path : Bytes) : Parsed Rgb := do
  requireObject object path
  rejectUnknownFields object path [ascii "red", ascii "green", ascii "blue"]
  let red ← parseField object (ascii "red") path parseInteger
  let green ← parseField object (ascii "green") path parseInteger
  let blue ← parseField object (ascii "blue") path parseInteger
  return { red := red, green := green, blue := blue }

def parsePriority (object : CJson) (path : Bytes) : Parsed ℤ :=
  parseOptional (optionalField object (ascii "priority")) kPriorityDefault fun value =>
    parseInteger value (childPath path (ascii "priority"))

def parseLedEffect (object : CJson) (path : Bytes) : Parsed LedEffectBinding := do
  let action ← parseField object (ascii "action") path parseString
  let priority ← parsePriority object path
  let effect ← parseField object (ascii "effect") path (parseEnum _)
  return { action := action, effect := effect, priority := priority }

/-- The fields that the three bindings with a zone share. -/
structure ZoneBinding where
  action : Bytes
  zone : LedZone
  color : Rgb
  priority : ℤ
  deriving DecidableEq, Repr

def parseZoneBinding (object : CJson) (path : Bytes) : Parsed ZoneBinding := do
  let action ← parseField object (ascii "action") path parseString
  let priority ← parsePriority object path
  let zone ← parseField object (ascii "zone") path parseZone
  let color ← parseField object (ascii "color") path parseColor
  return { action := action, zone := zone, color := color, priority := priority }

def parseOutput (root : CJson) (json : Bytes) (object : CJson) (path : Bytes) :
    Parsed OutputBinding := do
  let kind ← parseField object (ascii "type") path (parseEnum OutputType)
  match kind with
  | .ledEffect =>
    rejectUnknownFields object path [ascii "type", ascii "action", ascii "effect",
      ascii "priority"]
    return .ledEffect (← parseLedEffect object path)
  | .ledFill =>
    rejectUnknownFields object path [ascii "type", ascii "action", ascii "zone", ascii "color",
      ascii "priority"]
    let ⟨action, zone, color, priority⟩ ← parseZoneBinding object path
    return .ledFill { action := action, zone := zone, color := color, priority := priority }
  | .ledSolid =>
    rejectUnknownFields object path [ascii "type", ascii "action", ascii "zone", ascii "color",
      ascii "priority"]
    let ⟨action, zone, color, priority⟩ ← parseZoneBinding object path
    return .ledSolid { action := action, zone := zone, color := color, priority := priority }
  | .ledTransient =>
    rejectUnknownFields object path [ascii "type", ascii "action", ascii "zone", ascii "color",
      ascii "duration_ms", ascii "priority"]
    let ⟨action, zone, color, priority⟩ ← parseZoneBinding object path
    let durationMs ← parseField object (ascii "duration_ms") path fun value durationPath =>
      parseDuration value root json durationPath
    return .ledTransient { action := action, zone := zone, color := color,
                           durationMs := durationMs, priority := priority }

/-! ### Arrays -/

/-- The entries of the siblings from a node on. An error is told the index of its entry. -/
def parseEntries {Entry : Type} (name : Bytes) (parser : CJson → Bytes → Parsed Entry) :
    ℕ → CJson → Parsed (List Entry)
  | _, .nullptr => pure []
  | index, .node address string type child next => do
    let item := CJson.node address string type child next
    let path := indexedPath name index
    let entry ← (requireObject item path >>= fun _ => parser item path).mapError fun error =>
      { error with index := index }
    let later ← parseEntries name parser (index + 1) next
    return entry :: later

def parseArray {Entry : Type} (root : CJson) (name : Bytes)
    (parser : CJson → Bytes → Parsed Entry) : Parsed (List Entry) :=
  parseOptional (optionalField root name) [] fun array => do
    requireArray array name
    parseEntries name parser 0 array.child

/-! ### Preflight -/

inductive InputPreflight
  | ok | embeddedNul | tooDeep | resourceExhausted
  deriving DecidableEq, Repr

structure PreflightState where
  depth : ℕ := 0
  structuralElements : ℕ := 0
  inString : Bool := false
  escaped : Bool := false
  deriving DecidableEq, Repr

def preflightFrom : PreflightState → Bytes → InputPreflight
  | _, [] => .ok
  | state, c :: rest =>
    if c = 0 then .embeddedNul
    else if state.inString then
      if state.escaped then
        if c = 117 ∧ rest.take 4 = [48, 48, 48, 48] then .embeddedNul
        else preflightFrom { state with escaped := false } rest
      else if c = 92 then preflightFrom { state with escaped := true } rest
      else if c = 34 then preflightFrom { state with inString := false } rest
      else preflightFrom state rest
    else if c = 34 then preflightFrom { state with inString := true } rest
    else if c = 123 ∨ c = 91 then
      if kMaxControllerConfigJsonNesting < state.depth + 1 then .tooDeep
      else if kMaxControllerConfigJsonNodes < state.structuralElements + 1 then .resourceExhausted
      else preflightFrom { state with depth := state.depth + 1,
                                      structuralElements := state.structuralElements + 1 } rest
    else if c = 44 then
      if kMaxControllerConfigJsonNodes < state.structuralElements + 1 then .resourceExhausted
      else preflightFrom { state with structuralElements := state.structuralElements + 1 } rest
    else if (c = 125 ∨ c = 93) ∧ 0 < state.depth then
      preflightFrom { state with depth := state.depth - 1 } rest
    else preflightFrom state rest

theorem preflightFrom_plain {d e : ℕ} (rest : Bytes) {c : UInt8} (hzero : c ≠ 0)
    (hquote : c ≠ 34) (hbackslash : c ≠ 92) :
    preflightFrom ⟨d, e, true, false⟩ (c :: rest) = preflightFrom ⟨d, e, true, false⟩ rest := by
  simp [preflightFrom, hzero, hquote, hbackslash]

def preflightInput (json : Bytes) : InputPreflight := preflightFrom {} json

/-! ### Validation errors -/

def validationPath (result : ValidationResult) : Bytes :=
  match result.configSection with
  | .sinks => ascii "sinks.local_argb.pixel_count"
  | .actions => indexedPath (ascii "actions") result.index
  | .rules => indexedPath (ascii "rules") result.index
  | .outputs => indexedPath (ascii "outputs") result.index
  | .document => ascii "version"

/-- The text of a range. -/
def rangeText (minimum maximum : ℤ) : Bytes :=
  integerText minimum ++ ascii ".." ++ integerText maximum

def validationMessage : ValidationError → Bytes
  | .invalidPixelCount => ascii "pixel_count is outside the sink setting range"
  | .unsupportedVersion => ascii "unsupported configuration version; expected 1"
  | .emptyActionName => ascii "action name must not be empty"
  | .duplicateActionName => ascii "action name must be unique"
  | .undeclaredAction => ascii "action reference is not declared"
  | .duplicateAction => ascii "an action may have only one level rule"
  | .emptySignalKey => ascii "signal key must not be empty"
  | .unknownComparison => ascii "comparison is unsupported"
  | .unknownFreshness => ascii "freshness requirement is unsupported"
  | .unknownEventEdge => ascii "event edge is unsupported"
  | .emptyChoice => ascii "choice key must not be empty"
  | .invalidOperand => ascii "numeric operand must be finite"
  | .unsupportedComparison => ascii "ordered comparisons require a numeric operand"
  | .invalidHysteresis => ascii "release threshold must be on the release side of activation"
  | .invalidRange => ascii "range bounds and span must be finite, with ascending input"
  | .unknownLedEffect => ascii "LED effect is unsupported"
  | .unknownFillDirection => ascii "fill direction is unsupported"
  | .emptyZone => ascii "LED zone must not be empty"
  | .zoneOutOfRange => ascii "LED zone must fit within the strip"
  | .invalidColor => ascii "RGB channels must be in " ++ rangeText kColorMin kColorMax
  | .invalidPriority => ascii "priority must be in " ++ rangeText kPriorityMin kPriorityMax
  | .duplicateBinding => ascii "output binding target must be unique"
  | .invalidDuration =>
    ascii "transient duration_ms must be in " ++ rangeText kDurationMsMin kMaxTransientDurationMs
  | .incompatibleActionKind =>
    ascii "led_solid action must be driven by a state or sampled_state rule"
  | .none => ascii "configuration is valid"

/-! ### Documents -/

def parsePixelCount (root : CJson) : Parsed ℤ :=
  parseOptional (optionalField root (ascii "sinks")) kPixelCountDefault fun sinks => do
    requireObject sinks (ascii "sinks")
    rejectUnknownFields sinks (ascii "sinks") [ascii "local_argb"]
    parseOptional (optionalField sinks (ascii "local_argb")) kPixelCountDefault fun argb => do
      requireObject argb (ascii "sinks.local_argb")
      rejectUnknownFields argb (ascii "sinks.local_argb") [ascii "pixel_count"]
      parseOptional (optionalField argb (ascii "pixel_count")) kPixelCountDefault fun count =>
        parseInteger count (ascii "sinks.local_argb.pixel_count")

/-- The document of a root node, before validation. -/
def parseDocument (root : CJson) (json : Bytes) : Parsed ControllerConfig := do
  if root.type? ≠ some .object then
    structuralError .rootTypeMismatch (ascii "$") (ascii "configuration root must be an object")
  rejectUnknownFields root [] [ascii "version", ascii "actions", ascii "rules", ascii "outputs",
    ascii "sinks"]
  let pixelCount ← parsePixelCount root
  let version ← parseField root (ascii "version") [] parseInteger
  let actions ← parseArray root (ascii "actions") parseAction
  let rules ← parseArray root (ascii "rules") parseRule
  let outputs ← parseArray root (ascii "outputs") (parseOutput root json)
  return { version := version, pixelCount := pixelCount, actions := actions, rules := rules,
           outputs := outputs }

def isWhitespace (c : UInt8) : Bool := c ∈ ascii " \t\r\n"

def parseError {T : Type} (code : ConfigErrorCode) (message : Bytes) : Parsed T :=
  .error ⟨.parse, code, ascii "$", message, .none, 0⟩

def preflightError {T : Type} : InputPreflight → Parsed T
  | .embeddedNul => parseError .embeddedNul
      (ascii "configuration JSON contains an embedded NUL character")
  | .tooDeep => parseError .nestingLimitExceeded
      (ascii "configuration JSON exceeds maximum nesting depth")
  | _ => parseError .resourceExhausted (ascii "configuration JSON exceeds parser resource limits")

/-- One terminal NUL is no part of the text. -/
def withoutTerminator (json : Bytes) : Bytes :=
  if json.getLast? = some 0 then json.dropLast else json

def parseControllerConfig (library : ExternalLibrary) (json : Bytes) : Parsed ControllerConfig := do
  let text := withoutTerminator json
  if kMaxControllerConfigJsonBytes < text.length then
    parseError .inputTooLarge (ascii "configuration JSON exceeds maximum size")
  if preflightInput text ≠ .ok then preflightError (preflightInput text)
  match library.parseWithLength text with
  | .exhausted =>
    parseError .resourceExhausted (ascii "configuration JSON exhausted available memory")
  | .malformed => parseError .malformedJson (ascii "malformed JSON input")
  | .parsed root stop =>
    if (text.drop stop).any fun c => !isWhitespace c then
      parseError .malformedJson (ascii "trailing data after JSON document")
    let config ← parseDocument root text
    let validation := validate config
    if !validation.ok then
      .error ⟨.semantic, .schemaValidation, validationPath validation,
        validationMessage validation.error, validation.error, validation.index⟩
    return config

end AccessoryController.Persisted
