import Mathlib.Data.Nat.Digits.Defs
import AccessoryController.Library.Json
import AccessoryController.ControllerConfig.Persisted.Model

/-!
# Parsed JSON trees

The tree that the external JSON parser returns, as the loader sees it: nodes behind pointers, each
with its name, its value, its first child and its next sibling. The parser and the two conversions
between floating-point numbers and text are code outside the repository; they are parameters, and
`Faithful` states their documented behaviour.

## Main definitions

* `CJson`: a node pointer
* `ExternalLibrary`: the parser and the conversions
* `ExternalLibrary.Faithful`: what they promise
-/

open AccessoryController.ControllerConfig (Bytes)

namespace AccessoryController.Persisted

/-! ### Numbers -/

/-- A double-precision value. -/
inductive Double
  | finite (negative : Bool) (magnitude : ℚ)
  | infinite (negative : Bool)
  | nan
  deriving DecidableEq, Repr

namespace Double

def isFinite : Double → Bool
  | finite _ _ => true
  | _ => false

/-- The nearest single-precision number. -/
def toBinary32 : Double → Binary32
  | finite negative magnitude =>
    .signed negative (Binary32.roundBits (magnitude.num.toNat * 2 ^ 149) magnitude.den)
  | infinite negative => .signed negative Binary32.infinityBits
  | nan => Binary32.nan

def ofInt (n : ℤ) : Double := finite (decide (n < 0)) n.natAbs

/-- The value if it is an integer of 64 bits. -/
def toInt64? : Double → Option ℤ
  | finite negative magnitude =>
    let value := if negative then -magnitude else magnitude
    -- floor(number) == number, and the bounds of int64_t
    if value.den = 1 ∧ -2 ^ 63 ≤ value.num ∧ value.num < 2 ^ 63 then some value.num else none
  | _ => none

end Double

/-- The text of `std::to_string` for a natural. -/
def naturalText (n : ℕ) : Bytes :=
  if n = 0 then [48] else (Nat.digits 10 n).reverse.map fun digit => UInt8.ofNat (48 + digit)

/-- The text of `std::to_string` for an integer. -/
def integerText (n : ℤ) : Bytes := (if n < 0 then [45] else []) ++ naturalText n.natAbs

def digitValue (c : UInt8) : ℕ := c.toNat - 48

/-- `std::from_chars` for a 64-bit integer: the value of the longest prefix, and what follows. -/
def fromChars (text : Bytes) : Option (ℤ × Bytes) :=
  let negative := text.head? = some 45
  let body := if negative then text.tail else text
  let digits := body.takeWhile Json.isDigit
  let magnitude : ℕ := Nat.ofDigits 10 (digits.reverse.map digitValue)
  let value : ℤ := if negative then -magnitude else magnitude
  if digits = [] then none
  else if -2 ^ 63 ≤ value ∧ value < 2 ^ 63 then some (value, body.dropWhile Json.isDigit)
  else none

/-! ### Nodes -/

inductive CJsonType
  | null
  | boolean (value : Bool)
  | number (valuedouble : Double)
  | string (valuestring : Bytes)
  | array
  | object
  deriving DecidableEq, Repr

def CJsonType.isNumber : CJsonType → Bool
  | number _ => true
  | _ => false

/-- A node pointer. -/
inductive CJson
  | nullptr
  | node (address : ℕ) (string : Bytes) (type : CJsonType) (child next : CJson)
  deriving DecidableEq, Repr

/-- The characters of a C string. -/
def cString (text : Bytes) : Bytes := text.takeWhile (· ≠ 0)

namespace CJson

def name : CJson → Bytes
  | nullptr => []
  | node _ string _ _ _ => cString string

def type? : CJson → Option CJsonType
  | nullptr => none
  | node _ _ type _ _ => some type

def child : CJson → CJson
  | nullptr => nullptr
  | node _ _ _ child _ => child

def next : CJson → CJson
  | nullptr => nullptr
  | node _ _ _ _ next => next

/-- The first of the siblings that has a name. -/
def findName (wanted : Bytes) : CJson → CJson
  | nullptr => nullptr
  | node address string type child next =>
    if cString string = wanted then node address string type child next else findName wanted next

/-- `cJSON_GetObjectItemCaseSensitive`: the first member with a name. -/
def getObjectItem (object : CJson) (wanted : Bytes) : CJson := object.child.findName wanted

end CJson

/-! ### The tree of a text -/

/-- The value that a node has for an item of a text. -/
def CJsonType.ofKind (strtod : Bytes → Double) : Json.Kind → CJsonType
  | .null => .null
  | .boolean value => .boolean value
  | .number token => .number (strtod token)
  | .string _ value => .string value
  | .array => .array
  | .object => .object

/-- The nodes of a chain. The place of a node is the way to it from the first node of the chain:
`false` goes to the first child, and `true` to the next sibling. -/
def CJson.ofItems (strtod : Bytes → Double) : (place : List Bool → ℕ) → Json.Items → CJson
  | _, .nil => .nullptr
  | place, .cons key kind inner next =>
    .node (place []) key (.ofKind strtod kind)
      (ofItems strtod (fun way => place (false :: way)) inner)
      (ofItems strtod (fun way => place (true :: way)) next)

/-! ### Code outside the repository -/

/-- A null result is a malformed text or a failed allocation; the hooks tell them apart. -/
inductive CJsonResult
  | parsed (root : CJson) (stop : ℕ)
  | malformed
  | exhausted
  deriving DecidableEq, Repr

structure ExternalLibrary where
  /-- `cJSON_ParseWithLengthOpts`. -/
  parseWithLength : Bytes → CJsonResult
  /-- `snprintf` with nine significant digits. -/
  formatFloat : Binary32 → Bytes
  strtod : Bytes → Double

def kMaxControllerConfigJsonNesting : ℕ := 16

/-- The documented behaviour of the code outside the repository. -/
structure ExternalLibrary.Faithful (library : ExternalLibrary) : Prop where
  /-- The parser accepts JSON that nests no deeper than the loader lets pass. It returns one node
  for each item, in the order of the text. -/
  json : ∀ kind inner, (Json.Items.cons [] kind inner .nil).WellFormed false →
    (Json.Items.cons [] kind inner .nil).nesting ≤ kMaxControllerConfigJsonNesting →
    ∃ place : List Bool → ℕ, Function.Injective place ∧
      library.parseWithLength ((Json.Items.cons [] kind inner .nil).text false true) =
        .parsed (.ofItems library.strtod place (.cons [] kind inner .nil))
          ((Json.Items.cons [] kind inner .nil).text false true).length
  /-- Nine digits are a JSON number, and enough to read a finite number back. -/
  floats : ∀ x : Binary32, x.isFinite = true → Json.IsNumber (library.formatFloat x) ∧
    (library.formatFloat x).length ≤ 16 ∧
    (library.strtod (library.formatFloat x)).isFinite = true ∧
    (library.strtod (library.formatFloat x)).toBinary32 = x
  /-- Integers below `2 ^ 53` are read exactly. -/
  integers : ∀ n : ℤ, n.natAbs ≤ 2 ^ 53 → library.strtod (integerText n) = .ofInt n

end AccessoryController.Persisted
