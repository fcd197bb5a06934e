import Mathlib.Data.Int.Order.Basic
import AccessoryController.Library.BitField
import AccessoryController.ProfileRuntime.Extract

/-!
# Arithmetic of raw values is exact

A raw value stands for an integer: its bits as they are, or the two's complement of its width. The
sign and the magnitude that the runtime works with are those of this integer, so that comparison,
membership, conversion and difference are the ones of the integers. No operation leaves its type.

## Main definitions

* `RawValue.value`: the integer of a raw value
* `SameField`: two values of one field

## Main results

* `magnitudeOf_eq`: the sign and the magnitude of the integer
* `compareRaw_eq`, `inRange_eq`, `rawDelta_eq`, `signedValue_eq`, `convertDelta_eq`: the operations
* `raw_arithmetic_exact`: they agree with the integers
-/

namespace AccessoryController.ProfileRuntime

open BitField Checked SignedMagnitude

/-- A raw value of at most 64 bits without bits past its width. -/
def RawValue.Shaped (raw : RawValue) : Prop :=
  validRaw raw ∧ raw.bits.toNat < 2 ^ raw.bitLength

instance (raw : RawValue) : Decidable raw.Shaped := inferInstanceAs (Decidable (_ ∧ _))

/-- **The integer of a raw value**: unsigned, or in the two's complement of its width. -/
def RawValue.value (raw : RawValue) : ℤ :=
  if raw.isSigned then (raw.bits.setWidth raw.bitLength).toInt else raw.bits.toNat

/-- Two values of one field. -/
def SameField (left right : RawValue) : Prop :=
  left.Shaped ∧ right.Shaped ∧ left.bitLength = right.bitLength ∧ left.isSigned = right.isSigned

instance (left right : RawValue) : Decidable (SameField left right) :=
  inferInstanceAs (Decidable (_ ∧ _))

/-! ### Shapes -/

theorem widthMask_eq {width : ℕ} (within : width ≤ 64) :
    widthMask width = .ok (lowMask 64 width) := by
  unfold widthMask
  by_cases full : width = 64
  · rw [if_pos full, full]
    rfl
  · have shift : width < 64 := by omega
    have small : 2 ^ width < 2 ^ 64 := Nat.pow_lt_pow_right (by decide) shift
    have bit : ((1 : BitVec 64) <<< width).toNat = 2 ^ width := BitVec.toNat_twoPow_of_lt shift
    rw [if_neg full, shiftLeft_eq shift, ok_bind, bit,
      sub_eq (Nat.two_pow_pos width)]
    rfl

/-- The check of the shapes accepts the values of one field. -/
theorem sameRawShape_eq (left right : RawValue) :
    sameRawShape left right = .ok (decide (SameField left right)) := by
  unfold sameRawShape
  by_cases shape : validRaw left ∧ left.bitLength = right.bitLength ∧
      left.isSigned = right.isSigned
  · obtain ⟨valid, width, sign⟩ := shape
    have valid' : validRaw right := by
      rw [validRaw, ← width]
      exact valid
    rw [if_neg (not_not.mpr ⟨valid, width, sign⟩), widthMask_eq valid.2, ok_bind,
      widthMask_eq valid'.2, ok_bind]
    by_cases fits : left.bits.toNat < 2 ^ left.bitLength
    · have both : right.bits &&& ~~~lowMask 64 right.bitLength = 0 ↔ SameField left right := by
        rw [and_not_lowMask]
        exact ⟨fun fits' => ⟨⟨valid, fits⟩, ⟨valid', fits'⟩, width, sign⟩, fun same => same.2.1.2⟩
      rw [if_neg (not_not.mpr (and_not_lowMask.mpr fits))]
      exact congrArg Except.ok (decide_eq_decide.mpr both)
    · rw [if_pos fun clear => fits (and_not_lowMask.mp clear),
        decide_eq_false fun same : SameField left right => fits same.1.2]
      rfl
  · rw [if_pos shape, decide_eq_false fun same : SameField left right =>
      shape ⟨same.1.1, same.2.2⟩]
    rfl

/-! ### Signs and magnitudes -/

/-- The sign and the magnitude of an integer. -/
def SignedMagnitude.ofInt (n : ℤ) : SignedMagnitude := ⟨n.natAbs, decide (n < 0)⟩

theorem SignedMagnitude.magnitude_ofInt (n : ℤ) : (ofInt n).magnitude = n.natAbs := rfl

theorem SignedMagnitude.negative_ofInt (n : ℤ) : (ofInt n).negative = decide (n < 0) := rfl

/-- The integer of a shaped value, by its sign bit. -/
theorem value_eq {raw : RawValue} (shaped : raw.Shaped) :
    raw.value = if raw.isSigned = true ∧ 2 ^ (raw.bitLength - 1) ≤ raw.bits.toNat then
      (raw.bits.toNat : ℤ) - 2 ^ raw.bitLength else raw.bits.toNat := by
  unfold RawValue.value
  rw [toInt_setWidth shaped.1.1 shaped.2, getLsbD_sign shaped.1.1 shaped.2]
  by_cases signed : raw.isSigned = true <;> simp [signed]

/-- The integers of a field fit the machine words. -/
theorem value_bounds {raw : RawValue} (shaped : raw.Shaped) :
    (raw.isSigned = false → 0 ≤ raw.value ∧ raw.value < 2 ^ 64) ∧
      (raw.isSigned = true → -2 ^ 63 ≤ raw.value ∧ raw.value < 2 ^ 63) := by
  obtain ⟨⟨positive, within⟩, small⟩ := shaped
  have le : 2 ^ raw.bitLength ≤ 2 ^ 64 := Nat.pow_le_pow_right (by decide) within
  have half : 2 ^ (raw.bitLength - 1) ≤ 2 ^ 63 := Nat.pow_le_pow_right (by decide) (by omega)
  have double : 2 ^ raw.bitLength = 2 * 2 ^ (raw.bitLength - 1) := by
    rw [← Nat.pow_succ', Nat.succ_eq_add_one, Nat.sub_add_cancel positive]
  have double' : (2 : ℤ) ^ raw.bitLength = 2 * 2 ^ (raw.bitLength - 1) := by exact_mod_cast double
  have half' : (2 : ℤ) ^ (raw.bitLength - 1) ≤ 2 ^ 63 := by exact_mod_cast half
  rw [value_eq ⟨⟨positive, within⟩, small⟩]
  constructor
  · intro unsigned
    simp only [unsigned, Bool.false_eq_true, false_and, if_false]
    omega
  · intro signed
    simp only [signed, true_and]
    have cast : ((2 ^ (raw.bitLength - 1) : ℕ) : ℤ) = 2 ^ (raw.bitLength - 1) := by push_cast; rfl
    split_ifs with high <;> omega

variable (raw : RawValue)

/-- **The sign and the magnitude** of a raw value are those of its integer. -/
theorem magnitudeOf_eq :
    magnitudeOf raw =
      .ok (if raw.Shaped then some (.ofInt raw.value) else none) := by
  unfold magnitudeOf
  by_cases valid : validRaw raw
  · rw [if_neg (not_not.mpr valid), widthMask_eq valid.2, ok_bind]
    by_cases fits : raw.bits.toNat < 2 ^ raw.bitLength
    · have shaped : raw.Shaped := ⟨valid, fits⟩
      rw [if_neg (not_not.mpr (and_not_lowMask.mpr fits)), if_pos shaped, value_eq shaped]
      cases signed : raw.isSigned with
      | false => simp [ofInt, pure, Except.pure]
      | true =>
        have positive := valid.1
        have within := valid.2
        have shift : raw.bitLength - 1 < 64 := by omega
        have bit : (1 : BitVec 64) <<< (raw.bitLength - 1) = BitVec.twoPow 64 (raw.bitLength - 1) :=
          rfl
        rw [if_neg Bool.true_eq_false.mp, sub_eq positive, ok_bind,
          shiftLeft_eq shift, ok_bind, bit, BitVec.and_twoPow,
          getLsbD_sign positive fits]
        by_cases high : 2 ^ (raw.bitLength - 1) ≤ raw.bits.toNat
        · -- A negative value: the complement within the width, plus one.
          have nonzero : BitVec.twoPow 64 (raw.bitLength - 1) ≠ 0 := by
            intro zero
            have value := congrArg BitVec.toNat zero
            rw [BitVec.toNat_twoPow_of_lt shift] at value
            exact absurd value (Nat.ne_of_gt (Nat.two_pow_pos _))
          have room : 2 ^ raw.bitLength - 1 - raw.bits.toNat + 1 < 2 ^ 64 := by
            have : 2 ^ raw.bitLength ≤ 2 ^ 64 := Nat.pow_le_pow_right (by decide) within
            have : 0 < 2 ^ (raw.bitLength - 1) := Nat.two_pow_pos _
            omega
          simp only [high, decide_true, if_true, and_self]
          rw [if_neg nonzero, ok_bind, toNat_not_and_lowMask within fits,
            add_eq room, ok_bind]
          have cast : ((2 ^ raw.bitLength : ℕ) : ℤ) = 2 ^ raw.bitLength := by push_cast; rfl
          have magnitude : ((raw.bits.toNat : ℤ) - 2 ^ raw.bitLength).natAbs =
              2 ^ raw.bitLength - 1 - raw.bits.toNat + 1 := by omega
          have negative : (raw.bits.toNat : ℤ) - 2 ^ raw.bitLength < 0 := by omega
          rw [ofInt, magnitude, decide_eq_true negative]
          rfl
        · simp [high, ofInt, pure, Except.pure]
    · rw [if_pos (fun clear => fits (and_not_lowMask.mp clear)), if_neg fun shaped => fits shaped.2]
      rfl
  · rw [if_pos valid, if_neg fun shaped => valid shaped.1]
    rfl

/-! ### Order -/

/-- Signs and magnitudes are ordered as their integers. -/
theorem compareMagnitudes_ofInt (a b : ℤ) :
    compareMagnitudes (.ofInt a) (.ofInt b) = (a - b).sign := by
  unfold compareMagnitudes ofInt
  rcases lt_trichotomy a b with less | rfl | greater
  · rw [Int.sign_eq_neg_one_of_neg (by omega)]
    by_cases ha : a < 0 <;> by_cases hb : b < 0 <;> simp [ha, hb] <;> omega
  · simp
  · rw [Int.sign_eq_one_of_pos (by omega)]
    by_cases ha : a < 0 <;> by_cases hb : b < 0 <;> simp [ha, hb] <;> omega

/-- **Comparison** of two values of a field is that of their integers. -/
theorem compareRaw_eq (left right : RawValue) :
    compareRaw left right =
      .ok (if SameField left right then some (left.value - right.value).sign else none) := by
  unfold compareRaw
  rw [sameRawShape_eq, ok_bind]
  by_cases same : SameField left right
  · rw [if_pos (decide_eq_true same), if_pos same, magnitudeOf_eq, magnitudeOf_eq, if_pos same.1,
      if_pos same.2.1, ok_bind, ok_bind, ← compareMagnitudes_ofInt]
    rfl
  · rw [if_neg (by simpa using same), if_neg same]
    rfl

/-- A range whose bounds are values of the same field, the lower one first. -/
def RawRange.Fits (range : RawRange) (raw : RawValue) : Prop :=
  SameField raw range.minimum ∧ SameField raw range.maximum ∧
    range.minimum.value ≤ range.maximum.value

instance (range : RawRange) (raw : RawValue) : Decidable (range.Fits raw) :=
  inferInstanceAs (Decidable (_ ∧ _))

def RawRange.Contains (range : RawRange) (raw : RawValue) : Prop :=
  range.minimum.value ≤ raw.value ∧ raw.value ≤ range.maximum.value

instance (range : RawRange) (raw : RawValue) : Decidable (range.Contains raw) :=
  inferInstanceAs (Decidable (_ ∧ _))

theorem SameField.symm {left right : RawValue} (same : SameField left right) :
    SameField right left :=
  ⟨same.2.1, same.1, same.2.2.1.symm, same.2.2.2.symm⟩

theorem SameField.trans {left middle right : RawValue} (same : SameField left middle)
    (same' : SameField middle right) : SameField left right :=
  ⟨same.1, same'.2.1, same.2.2.1.trans same'.2.2.1, same.2.2.2.trans same'.2.2.2⟩

theorem sameRangeShape_eq (range : RawRange) :
    sameRangeShape raw range =
      .ok (decide (SameField raw range.minimum ∧ SameField raw range.maximum)) := by
  unfold sameRangeShape
  rw [sameRawShape_eq, ok_bind, sameRawShape_eq]
  by_cases low : SameField raw range.minimum <;> simp [low, pure, Except.pure]

/-- **Membership** in a range is that of the integers. -/
theorem inRange_eq (range : RawRange) :
    inRange raw range =
      .ok (if range.Fits raw then some (decide (range.Contains raw)) else none) := by
  unfold inRange
  rw [sameRangeShape_eq, ok_bind]
  by_cases bounds : SameField raw range.minimum ∧ SameField raw range.maximum
  · obtain ⟨low, high⟩ := bounds
    rw [if_pos (decide_eq_true ⟨low, high⟩), compareRaw_eq, compareRaw_eq, compareRaw_eq,
      if_pos (low.symm.trans high), if_pos low, if_pos high, ok_bind]
    by_cases ordered : range.minimum.value ≤ range.maximum.value
    · have order : ¬ 0 < (range.minimum.value - range.maximum.value).sign := by
        rw [Int.sign_pos_iff]
        omega
      have inside : 0 ≤ (raw.value - range.minimum.value).sign ∧
          (raw.value - range.maximum.value).sign ≤ 0 ↔ range.Contains raw := by
        rw [Int.sign_nonneg_iff, Int.sign_nonpos_iff, RawRange.Contains]
        omega
      rw [if_pos (show range.Fits raw from ⟨low, high, ordered⟩)]
      simp only [order, if_false, ok_bind]
      exact congrArg (fun b => Except.ok (some b)) (decide_eq_decide.mpr inside)
    · have order : 0 < (range.minimum.value - range.maximum.value).sign := by
        rw [Int.sign_pos_iff]
        omega
      rw [if_neg fun fits : range.Fits raw => ordered fits.2.2]
      simp only [order, if_true]
      rfl
  · rw [if_neg (by simpa using bounds), if_neg fun fits : range.Fits raw =>
      bounds ⟨fits.1, fits.2.1⟩]
    rfl

/-! ### Difference and conversion -/

/-- The integer of a difference in two halves. -/
def ExtendedValue.toInt (value : ExtendedValue) : ℤ :=
  (if value.high.negative then -(value.high.magnitude : ℤ) else value.high.magnitude) +
    if value.low.negative then -(value.low.magnitude : ℤ) else value.low.magnitude

/-- Two halves of 32 bits with a common sign, the higher one scaled by the words below it. -/
def ExtendedValue.Halves (value : ExtendedValue) : Prop :=
  value.high.negative = value.low.negative ∧
    (∃ high < 2 ^ 32, value.high.magnitude = high * 2 ^ 32) ∧ value.low.magnitude < 2 ^ 32

theorem ofMagnitude_halves {magnitude : ℕ} (small : magnitude < 2 ^ 64) (negative : Bool) :
    (ExtendedValue.ofMagnitude magnitude negative).Halves ∧
      (ExtendedValue.ofMagnitude magnitude negative).toInt =
        if negative then -(magnitude : ℤ) else magnitude := by
  have high : magnitude >>> 32 = magnitude / 2 ^ 32 := Nat.shiftRight_eq_div_pow magnitude 32
  have low : magnitude &&& 0xffffffff = magnitude % 2 ^ 32 :=
    Nat.and_two_pow_sub_one_eq_mod magnitude 32
  unfold ExtendedValue.Halves ExtendedValue.toInt ExtendedValue.ofMagnitude
  dsimp only
  rw [high, low, kLowWordScale]
  refine ⟨⟨rfl, ⟨magnitude / 2 ^ 32, by omega, rfl⟩, by omega⟩, ?_⟩
  cases negative
  · simp only [Bool.false_eq_true, if_false]
    omega
  · simp only [if_true]
    omega

/-- The distance of two integers of one sign. -/
theorem sameSignDistance_eq {a b : ℤ} (sameSign : a < 0 ↔ b < 0) :
    sameSignDistance (.ofInt a) (.ofInt b) (a - b).sign = .ok (a - b).natAbs := by
  have order : 0 ≤ (a - b).sign ↔ b ≤ a := by
    rw [Int.sign_nonneg_iff]
    omega
  simp only [sameSignDistance, ofInt, order, decide_eq_true_eq]
  split_ifs with negative above above
  all_goals
    rw [sub_eq (by omega)]
    exact congrArg Except.ok (by omega)

/-- Values of one field whose signs differ: their magnitudes have a sum in 64 bits. -/
theorem mixed_signs_room {raw pivot : RawValue} (same : SameField raw pivot)
    (mixed : ¬ (raw.value < 0 ↔ pivot.value < 0)) :
    raw.value.natAbs + pivot.value.natAbs < 2 ^ 64 := by
  obtain ⟨unsigned, signed⟩ := value_bounds same.1
  obtain ⟨unsigned', signed'⟩ := value_bounds same.2.1
  rw [← same.2.2.2] at unsigned' signed'
  cases sign : raw.isSigned with
  | false =>
    have := unsigned sign
    have := unsigned' sign
    omega
  | true =>
    have := signed sign
    have := signed' sign
    omega

/-- **The difference** of two values of a field. The check of the sum's overflow never fails. -/
theorem rawDelta_eq (pivot : RawValue) :
    rawDelta raw pivot = .ok (if SameField raw pivot then
      some (.ofMagnitude (raw.value - pivot.value).natAbs (decide (raw.value < pivot.value)))
      else none) := by
  unfold rawDelta
  rw [sameRawShape_eq, ok_bind]
  by_cases same : SameField raw pivot
  · rw [if_pos (decide_eq_true same), if_pos same, magnitudeOf_eq, magnitudeOf_eq, if_pos same.1,
      if_pos same.2.1, ok_bind, ok_bind]
    dsimp only
    rw [compareMagnitudes_ofInt]
    by_cases sameSign : raw.value < 0 ↔ pivot.value < 0
    · have signs : (ofInt raw.value).negative =
          (ofInt pivot.value).negative := decide_eq_decide.mpr sameSign
      rw [if_pos signs, sameSignDistance_eq sameSign, ok_bind]
      have order : (raw.value - pivot.value).sign < 0 ↔ raw.value < pivot.value := by
        rw [Int.sign_neg_iff]
        omega
      rw [decide_eq_decide.mpr order]
      rfl
    · -- The magnitudes are added; the check of their sum does not fail.
      have room := mixed_signs_room same sameSign
      have signs : ¬ (ofInt raw.value).negative =
          (ofInt pivot.value).negative := fun equal =>
        sameSign (decide_eq_decide.mp equal)
      have magnitude := magnitude_ofInt raw.value
      have magnitude' := magnitude_ofInt pivot.value
      rw [if_neg signs, sub_eq (by omega), ok_bind, if_neg (by omega),
        add_eq (by omega), ok_bind]
      have sum : (ofInt raw.value).magnitude +
          (ofInt pivot.value).magnitude =
          (raw.value - pivot.value).natAbs := by omega
      have order : raw.value < 0 ↔ raw.value < pivot.value := by omega
      rw [sum, negative_ofInt, decide_eq_decide.mpr order]
      rfl
  · rw [if_neg (by simpa using same), if_neg same]
    rfl

/-- **Conversion** of a signed field: the value itself, in 64 bits. -/
theorem signedValue_eq :
    signedValue raw =
      .ok (if raw.Shaped ∧ raw.isSigned = true then some raw.value else none) := by
  unfold signedValue
  rw [magnitudeOf_eq, ok_bind]
  by_cases shaped : raw.Shaped
  · rw [if_pos shaped]
    cases sign : raw.isSigned with
    | false => simp [pure, Except.pure]
    | true =>
      obtain ⟨low, high⟩ := (value_bounds shaped).2 sign
      have magnitude := magnitude_ofInt raw.value
      have negative_eq := negative_ofInt raw.value
      rw [if_pos ⟨shaped, rfl⟩]
      dsimp only
      rw [if_neg Bool.true_eq_false.mp]
      by_cases negative : raw.value < 0
      · rw [decide_eq_true negative] at negative_eq
        rw [if_neg (by simp [negative_eq])]
        by_cases extreme : raw.value.natAbs = 2 ^ 63
        · -- The smallest word has no positive counterpart and is set as it is.
          have value : raw.value = -2 ^ 63 := by omega
          rw [if_pos (magnitude.trans extreme), value]
          rfl
        · have value : -((ofInt raw.value).magnitude : ℤ) = raw.value := by omega
          rw [if_neg (by omega), signed_eq (by omega), ok_bind, value,
            signed_eq ⟨low, high⟩]
          rfl
      · have value : ((ofInt raw.value).magnitude : ℤ) = raw.value := by omega
        rw [decide_eq_false negative] at negative_eq
        rw [if_pos negative_eq, value, signed_eq ⟨low, high⟩]
        rfl
  · rw [if_neg shaped, if_neg fun both => shaped both.1]
    rfl

/-- A value that no invalid range contains; every one of them has to fit. -/
def OutsideAll (raw : RawValue) (ranges : List RawRange) : Prop :=
  ∀ range ∈ ranges, range.Fits raw ∧ ¬ range.Contains raw

instance (raw : RawValue) (ranges : List RawRange) : Decidable (OutsideAll raw ranges) :=
  inferInstanceAs (Decidable (∀ range ∈ ranges, _))

theorem outsideAll_eq (ranges : List RawRange) :
    outsideAll raw ranges = .ok (decide (OutsideAll raw ranges)) := by
  induction ranges with
  | nil => exact congrArg Except.ok (decide_eq_true fun _ mem => nomatch mem).symm
  | cons range ranges ih =>
    rw [outsideAll, inRange_eq, ok_bind]
    by_cases outside : range.Fits raw ∧ ¬ range.Contains raw
    · have rest : OutsideAll raw ranges ↔ OutsideAll raw (range :: ranges) := by
        simp [OutsideAll, outside]
      rw [if_pos outside.1, decide_eq_false outside.2]
      exact ih.trans (congrArg Except.ok (decide_eq_decide.mpr rest))
    · have not : ¬ OutsideAll raw (range :: ranges) := fun all =>
        outside (all range List.mem_cons_self)
      rw [decide_eq_false not]
      by_cases fits : range.Fits raw
      · have contained : range.Contains raw := not_not.mp fun free => outside ⟨fits, free⟩
        rw [if_pos fits, decide_eq_true contained]
        rfl
      · rw [if_neg fits]
        rfl

/-- **The checks of a conversion** and its difference, by the integers. -/
theorem convertDelta_eq (pivot : RawValue) (finiteConstants : Bool) (permittedRange : RawRange)
    (invalidRanges : List RawRange) :
    convertDelta raw pivot finiteConstants permittedRange invalidRanges =
      .ok (if SameField raw pivot ∧ finiteConstants = true ∧ permittedRange.Fits raw ∧
          permittedRange.Contains raw ∧ permittedRange.Contains pivot ∧
          OutsideAll raw invalidRanges then
        some (.ofMagnitude (raw.value - pivot.value).natAbs (decide (raw.value < pivot.value)))
        else none) := by
  unfold convertDelta
  by_cases same : SameField raw pivot
  · have fitsPivot : permittedRange.Fits pivot ↔ permittedRange.Fits raw :=
      ⟨fun fits => ⟨same.trans fits.1, same.trans fits.2.1, fits.2.2⟩,
        fun fits => ⟨same.symm.trans fits.1, same.symm.trans fits.2.1, fits.2.2⟩⟩
    rw [if_neg (not_not.mpr same.1.1), sameRawShape_eq, ok_bind,
      if_pos (decide_eq_true same), inRange_eq, inRange_eq, outsideAll_eq, rawDelta_eq]
    by_cases finite : finiteConstants = true <;> by_cases fits : permittedRange.Fits raw <;>
      by_cases here : permittedRange.Contains raw <;>
      by_cases there : permittedRange.Contains pivot <;>
      by_cases outside : OutsideAll raw invalidRanges <;>
      simp [same, finite, fitsPivot, fits, here, there, outside, pure, Except.pure, bind,
        Except.bind]
  · have rejected : ¬ (SameField raw pivot ∧ finiteConstants = true ∧ permittedRange.Fits raw ∧
        permittedRange.Contains raw ∧ permittedRange.Contains pivot ∧
        OutsideAll raw invalidRanges) := fun all => same all.1
    rw [if_neg rejected]
    by_cases valid : validRaw raw
    · rw [if_neg (not_not.mpr valid), sameRawShape_eq, ok_bind,
        if_neg (by simpa using same)]
      rfl
    · rw [if_pos valid]
      rfl

/-! ### Exactness -/

/-- **Raw arithmetic is exact.** For values of one field, comparison, membership in a range and the
conversion to a signed word are those of the integers, and the difference to a pivot is the exact
difference, as a sign and two halves of 32 bits; its check for an overflow never rejects. Values of
different fields are rejected. No operation overflows on any input. -/
theorem raw_arithmetic_exact :
    (∀ left right : RawValue, compareRaw left right =
      .ok (if SameField left right then some (left.value - right.value).sign else none)) ∧
    (∀ (raw : RawValue) (range : RawRange), inRange raw range =
      .ok (if range.Fits raw then
        some (decide (range.minimum.value ≤ raw.value ∧ raw.value ≤ range.maximum.value))
      else none)) ∧
    (∀ raw : RawValue, signedValue raw =
      .ok (if raw.Shaped ∧ raw.isSigned = true then some raw.value else none)) ∧
    (∀ raw pivot : RawValue, SameField raw pivot → ∃ difference : ExtendedValue,
      rawDelta raw pivot = .ok (some difference) ∧ difference.Halves ∧
        difference.toInt = raw.value - pivot.value) ∧
    (∀ raw pivot : RawValue, ¬ SameField raw pivot → rawDelta raw pivot = .ok none) ∧
    ∀ (raw pivot : RawValue) (finiteConstants : Bool) (permittedRange : RawRange)
      (invalidRanges : List RawRange),
      convertDelta raw pivot finiteConstants permittedRange invalidRanges =
        if SameField raw pivot ∧ finiteConstants = true ∧ permittedRange.Fits raw ∧
            permittedRange.Contains raw ∧ permittedRange.Contains pivot ∧
            OutsideAll raw invalidRanges then rawDelta raw pivot
        else .ok none := by
  refine ⟨compareRaw_eq, inRange_eq, signedValue_eq, ?_, ?_, ?_⟩
  · intro raw pivot same
    have small : (raw.value - pivot.value).natAbs < 2 ^ 64 := by
      obtain ⟨unsigned, signed⟩ := value_bounds same.1
      obtain ⟨unsigned', signed'⟩ := value_bounds same.2.1
      rw [← same.2.2.2] at unsigned' signed'
      cases sign : raw.isSigned with
      | false =>
        have := unsigned sign
        have := unsigned' sign
        omega
      | true =>
        have := signed sign
        have := signed' sign
        omega
    obtain ⟨halves, value⟩ := ofMagnitude_halves small (decide (raw.value < pivot.value))
    refine ⟨_, by rw [rawDelta_eq, if_pos same], halves, ?_⟩
    rw [value]
    by_cases less : raw.value < pivot.value
    · rw [if_pos (decide_eq_true less)]
      omega
    · rw [if_neg (by simpa using less)]
      omega
  · intro raw pivot different
    rw [rawDelta_eq, if_neg different]
  · intro raw pivot finiteConstants permittedRange invalidRanges
    rw [convertDelta_eq, rawDelta_eq]
    split_ifs with all same
    · rfl
    · exact absurd all.1 same
    · rfl

/-- The extremes of a signed field of 64 bits. -/
theorem raw_arithmetic_exact_extremes :
    ∃ difference : ExtendedValue,
      rawDelta ⟨0x8000000000000000, 64, true⟩ ⟨0x7FFFFFFFFFFFFFFF, 64, true⟩ =
          .ok (some difference) ∧
        difference.Halves ∧ difference.toInt = -2 ^ 63 - (2 ^ 63 - 1) := by
  obtain ⟨difference, run, halves, value⟩ := raw_arithmetic_exact.2.2.2.1
    ⟨0x8000000000000000, 64, true⟩ ⟨0x7FFFFFFFFFFFFFFF, 64, true⟩ (by decide)
  exact ⟨difference, run, halves, value.trans (by decide)⟩

end AccessoryController.ProfileRuntime
