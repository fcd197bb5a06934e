import Mathlib.Data.Int.Log
import Mathlib.Data.Rat.Floor
import Mathlib.Tactic.FieldSimp
import Mathlib.Tactic.Linarith

/-!
# Binary64 numbers near a rational

A rational is rounded to a double-precision number, ties to even: to an integer multiple of the
unit in the last place, which is the power of two that leaves 53 bits, and at least the smallest
positive number. The residual of a number, rounded again, doubles the precision.

## Main definitions

* `roundHalfEven value`: the nearest integer
* `Binary64.rounded value`: the nearest number, were there no largest one
* `Binary64`, `Binary64.ofRat`: a finite number or an infinity, and the rounding to it
* `Binary64.tolerance bits value`: how far a number of so many bits may be from a value

## Main results

* `roundHalfEven_nearest`: no integer is nearer
* `abs_sub_rounded_le`: a number is within its tolerance of 53 bits
* `abs_sub_limbs_le`: a number and its rounded residual are within a tolerance of 106 bits
-/

/-! ### Rounding to an integer -/

/-- The nearest integer, ties to even. -/
def roundHalfEven (value : ℚ) : ℤ :=
  let floor := value.num / value.den
  let remainder := value.num % value.den
  if remainder * 2 < value.den then floor
  else if value.den < remainder * 2 then floor + 1
  else if floor % 2 = 0 then floor
  else floor + 1

/-- The rounded value is at most one half away. -/
theorem roundHalfEven_near (value : ℚ) :
    (roundHalfEven value : ℚ) ≤ value + 1 / 2 ∧ value - 1 / 2 ≤ roundHalfEven value := by
  have positive : (0 : ℚ) < value.den := by exact_mod_cast value.den_pos
  have split : (value.num : ℚ) = value.den * (value.num / value.den : ℤ) +
      (value.num % value.den : ℤ) := by
    exact_mod_cast (Int.mul_ediv_add_emod value.num value.den).symm
  have quotient : value = (value.num / value.den : ℤ) +
      ((value.num % value.den : ℤ) : ℚ) / value.den := by
    conv_lhs => rw [← Rat.num_div_den value, split]
    field_simp
  have nonneg : (0 : ℚ) ≤ ((value.num % value.den : ℤ) : ℚ) / value.den :=
    div_nonneg (by exact_mod_cast Int.emod_nonneg _ (by exact_mod_cast value.den_nz)) positive.le
  have proper : ((value.num % value.den : ℤ) : ℚ) / value.den < 1 := by
    rw [div_lt_one positive]
    exact_mod_cast Int.emod_lt_of_pos _ (by exact_mod_cast value.den_pos)
  have below : value.num % value.den * 2 < value.den ↔
      ((value.num % value.den : ℤ) : ℚ) / value.den < 1 / 2 := by
    rw [div_lt_div_iff₀ positive two_pos, one_mul]
    norm_cast
  have above : value.den < value.num % value.den * 2 ↔
      1 / 2 < ((value.num % value.den : ℤ) : ℚ) / value.den := by
    rw [div_lt_div_iff₀ two_pos positive, one_mul]
    norm_cast
  unfold roundHalfEven
  dsimp only
  split_ifs with low high even
  · rw [below] at low
    constructor <;> linarith
  · rw [above] at high
    push_cast
    constructor <;> linarith
  · rw [below] at low
    rw [above] at high
    constructor <;> linarith
  · rw [below] at low
    rw [above] at high
    push_cast
    constructor <;> linarith

/-- No integer is nearer to a number than its rounded value. -/
theorem roundHalfEven_nearest (value : ℚ) (n : ℤ) :
    |roundHalfEven value - value| ≤ |n - value| := by
  obtain ⟨upper, lower⟩ := roundHalfEven_near value
  have half : |roundHalfEven value - value| ≤ 1 / 2 := abs_le.mpr ⟨by linarith, by linarith⟩
  rcases lt_trichotomy n (roundHalfEven value) with less | rfl | greater
  · have apart : (n : ℚ) + 1 ≤ roundHalfEven value := by exact_mod_cast less
    exact half.trans (le_abs.mpr (.inr (by linarith)))
  · exact le_refl _
  · have apart : (roundHalfEven value : ℚ) + 1 ≤ n := by exact_mod_cast greater
    exact half.trans (le_abs.mpr (.inl (by linarith)))

theorem abs_sub_roundHalfEven_le (value : ℚ) : |value - roundHalfEven value| ≤ 1 / 2 := by
  obtain ⟨upper, lower⟩ := roundHalfEven_near value
  exact abs_le.mpr ⟨by linarith, by linarith⟩

/-! ### Rounding to a binary64 number -/

namespace Binary64

/-- The exponent of the unit in the last place. -/
def ulpExponent (value : ℚ) : ℤ := max (Int.log 2 |value| - 52) (-1074)

/-- The nearest number, were there no largest one. -/
def rounded (value : ℚ) : ℚ :=
  roundHalfEven (value / 2 ^ ulpExponent value) * 2 ^ ulpExponent value

/-- The finite numbers: multiples of a power of two by 53 bits, below the first overflow. -/
def Representable (value : ℚ) : Prop :=
  (∃ significand exponent : ℤ, |significand| ≤ 2 ^ 53 ∧ -1074 ≤ exponent ∧
    value = significand * 2 ^ exponent) ∧ |value| < 2 ^ 1024

end Binary64

/-- A double-precision number by its value. -/
inductive Binary64
  | finite (value : ℚ) (representable : Binary64.Representable value)
  | infinite (negative : Bool)

namespace Binary64

/-- How far a number of `bits` bits may be from a value: half a unit in the last place, or half the
smallest positive number. -/
def tolerance (bits : ℕ) (value : ℚ) : ℚ := max (|value| / 2 ^ bits) (1 / 2 ^ 1075)

theorem rounded_zero : rounded 0 = 0 := by
  rw [rounded, zero_div, show roundHalfEven 0 = 0 from rfl, Int.cast_zero, zero_mul]

/-- **The error of rounding.** -/
theorem abs_sub_rounded_le (value : ℚ) : |value - rounded value| ≤ tolerance 53 value := by
  rcases eq_or_ne value 0 with rfl | nonzero
  · rw [rounded_zero, sub_zero, abs_zero]
    exact le_max_of_le_right (by positivity)
  have unit : (0 : ℚ) < 2 ^ ulpExponent value := zpow_pos two_pos _
  have half : |value - rounded value| ≤ 2 ^ ulpExponent value / 2 := by
    have scaled : value - rounded value =
        (value / 2 ^ ulpExponent value - roundHalfEven (value / 2 ^ ulpExponent value)) *
          2 ^ ulpExponent value := by
      rw [rounded, sub_mul, div_mul_cancel₀ _ unit.ne']
    rw [scaled, abs_mul, abs_of_pos unit]
    have near := abs_sub_roundHalfEven_le (value / 2 ^ ulpExponent value)
    calc
      _ ≤ 1 / 2 * (2 : ℚ) ^ ulpExponent value := mul_le_mul_of_nonneg_right near unit.le
      _ = 2 ^ ulpExponent value / 2 := by ring
  refine half.trans ?_
  rcases le_total (Int.log 2 |value| - 52) (-1074) with subnormal | normal
  · rw [ulpExponent, max_eq_right subnormal]
    refine le_max_of_le_right (le_of_eq ?_)
    rw [pow_succ 2 1074, zpow_neg, zpow_ofNat, one_div, mul_inv, div_eq_mul_inv]
  · rw [ulpExponent, max_eq_left normal]
    refine le_max_of_le_left ?_
    have binade : (2 : ℚ) ^ Int.log 2 |value| ≤ |value| := by
      exact_mod_cast Int.zpow_log_le_self (R := ℚ) Nat.one_lt_two (abs_pos.mpr nonzero)
    calc
      (2 : ℚ) ^ (Int.log 2 |value| - 52) / 2 = 2 ^ Int.log 2 |value| / 2 ^ 53 := by
        rw [zpow_sub₀ two_ne_zero]
        norm_num
        ring
      _ ≤ |value| / 2 ^ 53 := div_le_div_of_nonneg_right binade (by positivity)

/-- A rounded value has at most 53 bits. -/
theorem representable_rounded {value : ℚ} (bounded : |rounded value| < 2 ^ 1024) :
    Representable (rounded value) := by
  refine ⟨⟨roundHalfEven (value / 2 ^ ulpExponent value), ulpExponent value, ?_, le_max_right _ _,
    rfl⟩, bounded⟩
  have unit : (0 : ℚ) < 2 ^ ulpExponent value := zpow_pos two_pos _
  have binade : |value / 2 ^ ulpExponent value| < 2 ^ 53 := by
    rw [abs_div, abs_of_pos unit, div_lt_iff₀ unit]
    calc
      |value| < 2 ^ (Int.log 2 |value| + 1) := by
        exact_mod_cast Int.lt_zpow_succ_log_self (R := ℚ) Nat.one_lt_two |value|
      _ ≤ 2 ^ (53 + ulpExponent value) := by
        refine zpow_le_zpow_right₀ one_le_two ?_
        have := le_max_left (Int.log 2 |value| - 52) (-1074)
        rw [ulpExponent]
        omega
      _ = 2 ^ 53 * 2 ^ ulpExponent value := by
        rw [zpow_add₀ two_ne_zero]
        norm_num
  generalize value / 2 ^ ulpExponent value = scaled at binade ⊢
  have near := abs_sub_roundHalfEven_le scaled
  have close : |(roundHalfEven scaled : ℚ)| < 2 ^ 53 + 1 := by
    have := abs_sub_abs_le_abs_sub (roundHalfEven scaled : ℚ) scaled
    rw [abs_sub_comm] at this
    linarith
  have whole : |roundHalfEven scaled| < 2 ^ 53 + 1 := by exact_mod_cast close
  omega

def ofRat (value : ℚ) : Binary64 :=
  if bounded : |rounded value| < 2 ^ 1024 then .finite (rounded value) (representable_rounded bounded)
  else .infinite (decide (value < 0))

def isFinite : Binary64 → Bool
  | .finite .. => true
  | .infinite _ => false

/-- The value of a finite number. -/
def toRat : Binary64 → ℚ
  | .finite value _ => value
  | .infinite _ => 0

-- one tenth, and the largest value that rounds to a finite number
example : (ofRat (1 / 10)).toRat = 3602879701896397 / 2 ^ 55 ∧
    (ofRat (2 ^ 1024 - 2 ^ 970 - 1)).isFinite = true ∧
    (ofRat (2 ^ 1024 - 2 ^ 970)).isFinite = false := by
  decide +kernel

theorem isFinite_ofRat {value : ℚ} :
    (ofRat value).isFinite = true ↔ |rounded value| < 2 ^ 1024 := by
  unfold ofRat
  split
  · next bounded => exact iff_of_true rfl bounded
  · next overflow => exact iff_of_false (by simp [isFinite]) overflow

theorem toRat_ofRat {value : ℚ} (finite : (ofRat value).isFinite = true) :
    (ofRat value).toRat = rounded value := by
  rw [ofRat, dif_pos (isFinite_ofRat.mp finite)]
  rfl

/-! ### Two numbers for one value -/

/-- **Two numbers** for one value: the residual is rounded as well. -/
theorem abs_sub_limbs_le (value : ℚ) :
    |value - (rounded value + rounded (value - rounded value))| ≤ tolerance 106 value := by
  have near := abs_sub_rounded_le value
  have again := abs_sub_rounded_le (value - rounded value)
  rw [← sub_sub]
  refine again.trans (max_le ?_ (le_max_right _ _))
  rcases le_max_iff.mp near with normal | subnormal
  · refine le_max_of_le_left ?_
    calc
      |value - rounded value| / 2 ^ 53 ≤ |value| / 2 ^ 53 / 2 ^ 53 :=
        div_le_div_of_nonneg_right normal (by positivity)
      _ = |value| / 2 ^ 106 := by rw [div_div, ← pow_add]
  · refine le_max_of_le_right (le_trans ?_ subnormal)
    exact div_le_self (abs_nonneg _) (one_le_pow₀ one_le_two)

end Binary64
