import Mathlib.Data.Rat.Floor
import AccessoryController.VehicleProfiles.ProfileComposition
import AccessoryController.VehicleSignals.Contracts

/-!
# Validation of fields and bindings

Semantic validation checks the mechanics of every field of a profile document against the payload of
its message, and the policy of every binding of one field against the field and the reviewed unit
conversions of the caller. Decimal texts stand for exact rationals.

## Main definitions

* `Conversion`, `Binding`: a binding of one field, with its policy
* `checkField`: the checks of a field
* `checkDirect`: the checks of a binding

## Main results

* `soundField_of_checkField`, `soundDirect_of_checkDirect`: what the checks guarantee
* `SoundDirect.slope`: the slope of a number or a Boolean
-/

namespace AccessoryController.VehicleProfiles

open Grouping Outcome

/-! ### Documents -/

inductive SourceKind
  | dbc | native
  deriving DecidableEq, Repr

structure ProfileSource where
  id : String
  kind : SourceKind
  bus : String
  deriving DecidableEq, Repr

/-- A raw value of an enumeration with the key of its choice. -/
structure ChoiceMapping where
  raw : ℤ
  choice : String
  deriving DecidableEq, Repr

/-- An inclusive range of physical values. -/
structure InvalidRange where
  minimum : ℚ
  maximum : ℚ
  deriving DecidableEq, Repr

structure Conversion where
  sourceUnit : String
  targetUnit : String
  scale : ℚ
  offset : ℚ
  targetPrecision : String
  invalidRanges : List InvalidRange
  deriving DecidableEq, Repr

inductive ValueType
  | boolean | number | enum
  deriving DecidableEq, Repr

/-- A binding of one field, by its value type, its canonical unit and its policy. -/
structure Binding where
  type : ValueType
  unit : String
  conversion : Conversion
  enumMap : List ChoiceMapping
  deriving DecidableEq, Repr

/-- The reviewed affine map of a pair of units, by its scale and its offset. -/
abbrev UnitConversions := List ((String × String) × ℚ × ℚ)

/-! ### Fields -/

def ByteOrder.text : ByteOrder → String
  | .intel => "intel"
  | .motorola => "motorola"

/-- The least and the greatest raw value of a field. -/
def rawLow (length : ℕ) (signed : Bool) : ℤ := if signed then -2 ^ (length - 1) else 0

def rawHigh (length : ℕ) (signed : Bool) : ℤ := 2 ^ (length - if signed then 1 else 0) - 1

/-- The check of a raw integer: its text has at most twenty digits. -/
def rawInteger (raw : ℤ) (path : String) (sources : List String) : Except ProfileError Unit :=
  refuse (10 ^ 20 ≤ raw.natAbs)
    ⟨"invalid_enum", path, "raw integer exceeds a 64-bit field", sortedSet sources⟩

/-- The entries of a raw-value table from an index on, after the raw values seen so far. -/
def checkValueTable (path : String) (refs : List String) (low high : ℤ) :
    ℕ → List ℤ → List (ℤ × String) → Except ProfileError Unit
  | _, _, [] => pure ()
  | vi, rawValues, (raw, _) :: rest => do
    rawInteger raw s!"{path}.value_table[{vi}].raw" refs
    refuse (raw ∈ rawValues ∨ ¬ (low ≤ raw ∧ raw ≤ high))
      ⟨"invalid_enum", s!"{path}.value_table[{vi}]", "duplicate or out-of-range raw enum",
        sortedSet refs⟩
    checkValueTable path refs low high (vi + 1) (raw :: rawValues) rest

/-- The positions of a field, or the refusal of its coordinates. -/
def fieldBits (path : String) (field : ProfileField) : Except ProfileError (List ℕ) :=
  (occupiedBitsOf field.start field.length field.byteOrder.text).mapError fun reason =>
    ⟨"invalid_bit_coordinates", path, reason, sortedSet field.sources⟩

def checkField (sources : List ProfileSource) (message : ProfileMessage) (path : String)
    (field : ProfileField) : Except ProfileError Unit := do
  let refs := field.sources
  refuse (refs = [] ∨ refs.any fun s => (sources.find? fun source => source.id == s).any
      fun source => source.kind ≠ .dbc ∨ source.bus ≠ message.bus)
    ⟨"invalid_source_reference", path ++ ".sources",
      "DBC fields require matching-bus DBC provenance", sortedSet refs⟩
  let bits ← fieldBits path field
  refuse (∃ bit ∈ bits, message.dlc * 8 ≤ bit)
    ⟨"invalid_bit_coordinates", path, "occupied bit exceeds message payload", sortedSet refs⟩
  refuse (field.scale = 0 ∨ field.maximum < field.minimum)
    ⟨"invalid_numeric_range", path, "scale must be nonzero and minimum must not exceed maximum",
      sortedSet refs⟩
  let low := rawLow field.length field.signed
  let high := rawHigh field.length field.signed
  let first := low * field.scale + field.offset
  let last := high * field.scale + field.offset
  refuse (field.minimum < min first last ∨ max first last < field.maximum)
    ⟨"invalid_numeric_range", path, "declared bounds exceed raw field range", sortedSet refs⟩
  checkValueTable path refs low high 0 [] field.valueTable

/-! ### Bindings -/

/-- The largest finite number and the smallest positive one that a binding may target. -/
def floatMax : ℚ := (2 ^ 24 - 1) * 2 ^ 104

def floatMin : ℚ := 1 / 2 ^ 149

def expectedPrecision : ValueType → String
  | .number => "float32"
  | .boolean => "boolean"
  | .enum => "uint16"

/-- The checks of a binding that extracts one field. -/
def checkDirect (unitConversions : UnitConversions) (path : String) (refs : List String)
    (binding : Binding) (field : ProfileField) : Except ProfileError Unit := do
  let conversion := binding.conversion
  let pair := (conversion.sourceUnit, conversion.targetUnit)
  refuse (conversion.scale = 0 ∨ pair ≠ (field.unit, binding.unit) ∨
      unitConversions.lookup pair ≠ some (conversion.scale, conversion.offset))
    ⟨"invalid_conversion", path ++ ".policy.conversion",
      "conversion must match reviewed unit normalization", sortedSet refs⟩
  refuse (conversion.targetPrecision ≠ expectedPrecision binding.type)
    ⟨"invalid_conversion", path ++ ".policy.conversion.target_precision",
      "precision must match provider value type", sortedSet refs⟩
  refuse (∃ invalid ∈ conversion.invalidRanges, invalid.maximum < invalid.minimum ∨
      invalid.minimum < field.minimum ∨ field.maximum < invalid.maximum)
    ⟨"invalid_conversion", path ++ ".policy.conversion.invalid_ranges",
      "invalid range must be ordered within source physical bounds", sortedSet refs⟩
  let converted := [field.minimum * conversion.scale + conversion.offset,
    field.maximum * conversion.scale + conversion.offset]
  refuse (binding.type = .number ∧
      ((∃ value ∈ converted, floatMax < |value| ∨ 0 < |value| ∧ |value| < floatMin) ∨
        |field.scale * conversion.scale| < floatMin))
    ⟨"invalid_conversion", path, "conversion cannot fit finite float32 values", sortedSet refs⟩
  refuse (binding.type = .boolean ∧
      (¬ ((∀ value ∈ converted, value = 0 ∨ value = 1) ∧ 0 ∈ converted ∧ 1 ∈ converted) ∨
        field.length ≠ 1))
    ⟨"invalid_conversion", path, "boolean extraction requires an explicit one-bit zero/one field",
      sortedSet refs⟩
  binding.enumMap.forM fun mapping => rawInteger mapping.raw (path ++ ".policy.enum_map") refs
  let rawMap := binding.enumMap.map ChoiceMapping.raw
  refuse (¬ rawMap.Nodup ∨ ∃ raw ∈ rawMap, ¬ (rawLow field.length field.signed ≤ raw ∧
      raw ≤ rawHigh field.length field.signed))
    ⟨"invalid_enum", path ++ ".policy.enum_map", "duplicate or out-of-range enum mapping",
      sortedSet refs⟩
  refuse (¬ (binding.type = .enum ↔ rawMap ≠ []))
    ⟨"invalid_enum", path ++ ".policy.enum_map", "only enum bindings require raw mappings",
      sortedSet refs⟩

/-! ### Checks as facts -/

/-- The mechanics of a field that passed its checks, in a payload of `dlc` bytes. -/
structure SoundField (dlc : ℕ) (field : ProfileField) : Prop where
  length : 1 ≤ field.length ∧ field.length ≤ 64
  inside : ∀ bit ∈ field.bits, bit < dlc * 8
  scale : field.scale ≠ 0
  bounds : field.minimum ≤ field.maximum
  /-- The bounds lie between the physical values of the least and the greatest raw value. -/
  reach : field.maximum - field.minimum ≤
    |(rawLow field.length field.signed - rawHigh field.length field.signed) * field.scale|

variable {field : ProfileField}

theorem fieldBits_eq_ok {path : String} {bits : List ℕ} (ok : fieldBits path field = .ok bits) :
    (1 ≤ field.length ∧ field.length ≤ 64) ∧ bits = field.bits := by
  unfold fieldBits at ok
  have bounds : 1 ≤ field.length ∧ field.length ≤ 64 := by
    by_contra outside
    rw [occupiedBitsOf, if_pos (.inr (by omega))] at ok
    cases ok
  refine ⟨bounds, ?_⟩
  rw [occupiedBitsOf, if_neg (by omega)] at ok
  cases order : field.byteOrder with
  | intel =>
    rw [order] at ok
    simpa [ProfileField.bits, order] using (Except.ok.inj ok).symm
  | motorola =>
    rw [order] at ok
    simpa [ProfileField.bits, order] using (Except.ok.inj ok).symm

theorem soundField_of_checkField {sources : List ProfileSource} {message : ProfileMessage}
    {path : String} (ok : checkField sources message path field = .ok ()) :
    SoundField message.dlc field := by
  rw [checkField, refuse_bind_eq_ok] at ok
  obtain ⟨bits, found, ok⟩ := bind_eq_ok.mp ok.2
  rw [refuse_bind_eq_ok, refuse_bind_eq_ok] at ok
  obtain ⟨inside, range, ok⟩ := ok
  rw [refuse_bind_eq_ok] at ok
  obtain ⟨reach, -⟩ := ok
  obtain ⟨length, rfl⟩ := fieldBits_eq_ok found
  refine ⟨length, fun bit mem => ?_, fun zero => range (.inl zero), ?_, ?_⟩
  · by_contra outside
    exact inside ⟨bit, mem, Nat.not_lt.mp outside⟩
  · exact not_lt.mp fun less => range (.inr less)
  · push Not at reach
    have width := max_sub_min_eq_abs'
      (rawLow field.length field.signed * field.scale + field.offset)
      (rawHigh field.length field.signed * field.scale + field.offset)
    rw [add_sub_add_right_eq_sub, ← sub_mul] at width
    rw [← width]
    exact sub_le_sub reach.2 reach.1

/-- A binding of one field that passed its checks. -/
structure SoundDirect (binding : Binding) (field : ProfileField) : Prop where
  scale : binding.conversion.scale ≠ 0
  ranges : ∀ invalid ∈ binding.conversion.invalidRanges, invalid.minimum ≤ invalid.maximum ∧
    field.minimum ≤ invalid.minimum ∧ invalid.maximum ≤ field.maximum
  number : binding.type = .number → floatMin ≤ |field.scale * binding.conversion.scale|
  boolean : binding.type = .boolean → field.length = 1 ∧
    (field.minimum * binding.conversion.scale + binding.conversion.offset = 0 ∧
        field.maximum * binding.conversion.scale + binding.conversion.offset = 1 ∨
      field.minimum * binding.conversion.scale + binding.conversion.offset = 1 ∧
        field.maximum * binding.conversion.scale + binding.conversion.offset = 0)

theorem soundDirect_of_checkDirect {unitConversions : UnitConversions} {path : String}
    {refs : List String} {binding : Binding}
    (ok : checkDirect unitConversions path refs binding field = .ok ()) :
    SoundDirect binding field := by
  simp only [checkDirect, refuse_bind_eq_ok] at ok
  obtain ⟨coefficients, -, ranges, number, boolean, -⟩ := ok
  push Not at coefficients ranges
  refine ⟨coefficients.1, ranges, fun type => ?_, fun type => ?_⟩
  · exact not_lt.mp fun small => number ⟨type, .inr small⟩
  · rw [not_and] at boolean
    have sound := boolean type
    push Not at sound
    simp only [List.mem_cons, List.not_mem_nil, or_false, forall_eq_or_imp, forall_eq] at sound
    obtain ⟨⟨-, zero, one⟩, length⟩ := sound
    refine ⟨length, ?_⟩
    rcases zero with zero | zero <;> rcases one with one | one
    · exact absurd (zero.trans one.symm) zero_ne_one
    · exact .inl ⟨zero.symm, one.symm⟩
    · exact .inr ⟨one.symm, zero.symm⟩
    · exact absurd (zero.trans one.symm) zero_ne_one

/-- The slope of a checked number or Boolean does not vanish. -/
theorem SoundDirect.slope {dlc : ℕ} {binding : Binding} (direct : SoundDirect binding field)
    (sound : SoundField dlc field) (affine : binding.type ≠ .enum) :
    floatMin ≤ |field.scale * binding.conversion.scale| := by
  cases type : binding.type with
  | number => exact direct.number type
  | enum => exact absurd type affine
  | boolean =>
    -- one step of the raw value goes from zero to one
    obtain ⟨length, ends⟩ := direct.boolean type
    have step : (rawLow field.length field.signed - rawHigh field.length field.signed : ℚ) = -1 := by
      rw [length]
      cases field.signed <;> norm_num [rawLow, rawHigh]
    have reach := sound.reach
    rw [step, neg_one_mul, abs_neg] at reach
    have whole : |(field.maximum - field.minimum) * binding.conversion.scale| = 1 := by
      rcases ends with ⟨first, last⟩ | ⟨first, last⟩
      · rw [show (field.maximum - field.minimum) * binding.conversion.scale = 1 by linarith, abs_one]
      · rw [show (field.maximum - field.minimum) * binding.conversion.scale = -1 by linarith, abs_neg,
          abs_one]
    calc
      floatMin ≤ 1 := by norm_num [floatMin]
      _ = |field.maximum - field.minimum| * |binding.conversion.scale| := by rw [← abs_mul, whole]
      _ ≤ |field.scale| * |binding.conversion.scale| := by
        refine mul_le_mul_of_nonneg_right ?_ (abs_nonneg _)
        rwa [abs_of_nonneg (sub_nonneg.mpr sound.bounds)]
      _ = |field.scale * binding.conversion.scale| := (abs_mul _ _).symm

end AccessoryController.VehicleProfiles
