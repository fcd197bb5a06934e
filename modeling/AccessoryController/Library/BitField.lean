import Mathlib.Algebra.Group.Int.Defs
import Mathlib.Algebra.Group.Nat.Defs
import Mathlib.Tactic.SplitIfs

/-!
# Right-aligned fields of a word

A field of some width holds the low bits of a word. Its bits are unsigned as they stand, and signed
as the two's complement of the field's own width.

## Main definitions

* `BitField.lowMask w width`: the mask of the low bits

## Main results

* `BitField.and_not_lowMask`: a word without bits past the width is a small number
* `BitField.toNat_not_and_lowMask`: the complement within the width
* `BitField.toInt_setWidth`: the signed value of a field
-/

namespace BitField

variable {w width : ℕ} {word : BitVec w}

/-- The mask of the low `width` bits. -/
def lowMask (w width : ℕ) : BitVec w := BitVec.ofNat w (2 ^ width - 1)

theorem getLsbD_lowMask (w width i : ℕ) :
    (lowMask w width).getLsbD i = (decide (i < w) && decide (i < width)) := by
  rw [lowMask, BitVec.getLsbD_ofNat, Nat.testBit_two_pow_sub_one]

theorem toNat_lowMask (within : width ≤ w) : (lowMask w width).toNat = 2 ^ width - 1 := by
  have le : 2 ^ width ≤ 2 ^ w := Nat.pow_le_pow_right (by decide) within
  have positive : 0 < 2 ^ width := Nat.two_pow_pos width
  rw [lowMask, BitVec.toNat_ofNat, Nat.mod_eq_of_lt (by omega)]

/-- A number is small when its high bits are clear. -/
theorem toNat_lt_iff : word.toNat < 2 ^ width ↔ ∀ i, width ≤ i → word.getLsbD i = false := by
  constructor
  · intro small i beyond
    exact Nat.testBit_lt_two_pow (Nat.lt_of_lt_of_le small (Nat.pow_le_pow_right (by decide) beyond))
  · exact Nat.lt_pow_two_of_testBit _

/-- **A word without bits past the width** is a small number. -/
theorem and_not_lowMask : word &&& ~~~(lowMask w width) = 0 ↔ word.toNat < 2 ^ width := by
  rw [toNat_lt_iff]
  constructor
  · intro clear i beyond
    by_cases inside : i < w
    · have bit := congrArg (fun v : BitVec w => v.getLsbD i) clear
      simp only [BitVec.getLsbD_and, BitVec.getLsbD_not, getLsbD_lowMask] at bit
      simpa [inside, Nat.not_lt.mpr beyond] using bit
    · exact BitVec.getLsbD_of_ge _ _ (Nat.le_of_not_lt inside)
  · intro clear
    refine BitVec.eq_of_getLsbD_eq fun i inside => ?_
    by_cases low : i < width
    · simp [getLsbD_lowMask, inside, low]
    · simp [clear i (Nat.le_of_not_lt low)]

/-- **The complement within the width**. -/
theorem toNat_not_and_lowMask (within : width ≤ w) (small : word.toNat < 2 ^ width) :
    (~~~word &&& lowMask w width).toNat = 2 ^ width - 1 - word.toNat := by
  have split : 2 ^ w = 2 ^ width * 2 ^ (w - width) := by
    rw [← Nat.pow_add, Nat.add_sub_cancel' within]
  have positive : 0 < 2 ^ (w - width) := Nat.two_pow_pos _
  have whole : 2 ^ w - 1 - word.toNat =
      2 ^ width - 1 - word.toNat + 2 ^ width * (2 ^ (w - width) - 1) := by
    rw [split, Nat.mul_sub, Nat.mul_one]
    have : 2 ^ width ≤ 2 ^ width * 2 ^ (w - width) := Nat.le_mul_of_pos_right _ positive
    omega
  rw [BitVec.toNat_and, BitVec.toNat_not, toNat_lowMask within, Nat.and_two_pow_sub_one_eq_mod,
    whole, Nat.add_mul_mod_self_left, Nat.mod_eq_of_lt (by omega)]

/-- **The signed value of a field**: the two's complement of its width. -/
theorem toInt_setWidth (positive : 0 < width) (small : word.toNat < 2 ^ width) :
    (word.setWidth width).toInt =
      if word.getLsbD (width - 1) then (word.toNat : ℤ) - 2 ^ width else word.toNat := by
  have value : (word.setWidth width).toNat = word.toNat := by
    rw [BitVec.toNat_setWidth, Nat.mod_eq_of_lt small]
  rw [BitVec.toInt_eq_msb_cond, BitVec.msb_setWidth, value, decide_eq_true positive, Bool.true_and]
  push_cast
  rfl

/-- The sign bit of a field, against its value. -/
theorem getLsbD_sign (positive : 0 < width) (small : word.toNat < 2 ^ width) :
    word.getLsbD (width - 1) = decide (2 ^ (width - 1) ≤ word.toNat) := by
  obtain ⟨n, rfl⟩ := Nat.exists_eq_add_of_lt positive
  have double : 2 ^ (0 + n + 1) = 2 * 2 ^ n := by rw [Nat.zero_add, Nat.pow_succ, Nat.mul_comm]
  rw [BitVec.getLsbD, Nat.testBit_eq_decide_div_mod_eq, Nat.add_sub_cancel, Nat.zero_add]
  rw [double] at small
  by_cases high : 2 ^ n ≤ word.toNat
  · have quotient : word.toNat / 2 ^ n = 1 := Nat.div_eq_of_lt_le (by omega) (by omega)
    simp [quotient, high]
  · simp [Nat.div_eq_of_lt (Nat.lt_of_not_le high), high]

end BitField
