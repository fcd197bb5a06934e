import AccessoryController.Library.Binary64
import AccessoryController.Library.Intervals
import AccessoryController.ProfileRuntime.Extract
import AccessoryController.VehicleProfiles.ProfileValidation

/-!
# Generated constants

The generator turns the policy of a binding into constants of the firmware: the raw values that may
pass, and an affine map about a pivot. Physical bounds are inverted into raw bounds with exact
rationals, on the host. A constant of the affine map is emitted as two binary64 numbers, the second
one for the residual of the first.

## Main definitions

* `rawInterval`, `permittedInterval`, `invalidIntervals`: physical bounds as raw bounds
* `conversionPivot`: the pivot of an affine map
* `extended`: a constant as two binary64 numbers
* `bindingCode`: the constants of a binding
-/

namespace AccessoryController.VehicleProfiles

open Grouping Outcome Intervals ProfileRuntime

/-! ### Raw bounds -/

def rawLimits (field : ProfileField) : ℤ × ℤ :=
  if field.signed then (-2 ^ (field.length - 1), 2 ^ (field.length - 1) - 1)
  else (0, 2 ^ field.length - 1)

/-- The raw values of a physical interval; `none` if there are none. -/
def rawInterval (field : ProfileField) (minimum maximum : ℚ) : Option (ℤ × ℤ) :=
  let first := (minimum - field.offset) / field.scale
  let last := (maximum - field.offset) / field.scale
  let lower := max ⌈min first last⌉ (rawLimits field).1
  let upper := min ⌊max first last⌋ (rawLimits field).2
  if lower ≤ upper then some (lower, upper) else none

def permittedInterval (field : ProfileField) : Except ProfileError (ℤ × ℤ) :=
  match rawInterval field field.minimum field.maximum with
  | some interval => .ok interval
  | none => .error ⟨"invalid_runtime_range", "$.messages",
      "field has no representable raw value in its declared bounds", []⟩

/-- The raw values of an invalid range among the permitted ones. -/
def invalidInterval (field : ProfileField) (permitted : ℤ × ℤ) (invalid : InvalidRange) :
    Option (ℤ × ℤ) :=
  match rawInterval field invalid.minimum invalid.maximum with
  | none => none
  | some interval =>
    let lower := max interval.1 permitted.1
    let upper := min interval.2 permitted.2
    if lower ≤ upper then some (lower, upper) else none

def invalidIntervals (conversion : Conversion) (field : ProfileField) (permitted : ℤ × ℤ) :
    List (ℤ × ℤ) :=
  merge (sortOn toLex (conversion.invalidRanges.filterMap (invalidInterval field permitted)))

/-! ### Constants -/

/-- The low bits of an integer, in two's complement. -/
def bits (raw : ℤ) (width : ℕ) : BitVec 64 := BitVec.ofNat 64 (raw % 2 ^ width).toNat

def rawValue (raw : ℤ) (field : ProfileField) : RawValue :=
  ⟨bits raw field.length, field.length, field.signed⟩

def rawRange (interval : ℤ × ℤ) (field : ProfileField) : RawRange :=
  ⟨rawValue interval.1 field, rawValue interval.2 field⟩

/-- A constant of the affine map: the sum of two numbers. -/
structure ExtendedConstant where
  high : Binary64
  low : Binary64

namespace ExtendedConstant

def isFinite (constant : ExtendedConstant) : Bool :=
  constant.high.isFinite && constant.low.isFinite

def isZero (constant : ExtendedConstant) : Bool :=
  decide (constant.high.toRat = 0) && decide (constant.low.toRat = 0)

/-- The value of a finite constant. -/
def toRat (constant : ExtendedConstant) : ℚ := constant.high.toRat + constant.low.toRat

end ExtendedConstant

/-- An exact value as a constant. On the host a conversion that would overflow raises an error, so
that a number which is there is finite. -/
def extended (value : ℚ) : Except ProfileError ExtendedConstant := do
  let high := Binary64.ofRat value
  refuse (high.isFinite = false) ⟨"invalid_runtime_conversion", "$.bindings",
    "affine constant is outside the finite binary64 range", []⟩
  let residual := value - high.toRat
  let low := Binary64.ofRat residual
  refuse (low.isFinite = false) ⟨"invalid_runtime_conversion", "$.bindings",
    "affine residual is not finite", []⟩
  pure ⟨high, low⟩

/-- The slope of a binding over raw values, and its target at the pivot. -/
def bindingConversion (conversion : Conversion) (field : ProfileField) (pivot : ℤ) : ℚ × ℚ :=
  let targetScale := field.scale * conversion.scale
  let targetOffset := field.offset * conversion.scale + conversion.offset
  (targetScale, pivot * targetScale + targetOffset)

/-- The permitted raw value nearest to the zero of the affine map. -/
def conversionPivot (conversion : Conversion) (field : ProfileField) (permitted : ℤ × ℤ) : ℤ :=
  let (scale, targetOffset) := bindingConversion conversion field 0
  if scale = 0 then permitted.1
  else min permitted.2 (max permitted.1 (roundHalfEven (-targetOffset / scale)))

/-- An affine map about a pivot. -/
structure NumberConversion where
  pivot : RawValue
  scale : ExtendedConstant
  targetAtPivot : ExtendedConstant

/-- The checks of the constants at run time. -/
def NumberConversion.finiteConstants (conversion : NumberConversion) : Bool :=
  conversion.scale.isFinite && conversion.targetAtPivot.isFinite && !conversion.scale.isZero

def numberConversion (conversion : Conversion) (field : ProfileField) (permitted : ℤ × ℤ) :
    Except ProfileError NumberConversion := do
  let pivot := conversionPivot conversion field permitted
  let (scale, targetAtPivot) := bindingConversion conversion field pivot
  let scale ← extended scale
  let targetAtPivot ← extended targetAtPivot
  pure ⟨rawValue pivot field, scale, targetAtPivot⟩

/-- The constants of a binding. -/
structure BindingConstants where
  permitted : RawRange
  invalidRanges : List RawRange
  conversion : Option NumberConversion

/-- Numbers and Booleans have an affine map. -/
def affineCode (binding : Binding) (field : ProfileField) (permitted : ℤ × ℤ) :
    Except ProfileError (Option NumberConversion) :=
  match binding.type with
  | .enum => .ok none
  | .number | .boolean => some <$> numberConversion binding.conversion field permitted

def bindingCode (binding : Binding) (field : ProfileField) :
    Except ProfileError BindingConstants := do
  let permitted ← permittedInterval field
  let invalid := invalidIntervals binding.conversion field permitted
  let conversion ← affineCode binding field permitted
  pure
    ⟨rawRange permitted field, invalid.map fun interval => rawRange interval field, conversion⟩

end AccessoryController.VehicleProfiles
