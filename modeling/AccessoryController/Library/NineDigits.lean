import Mathlib.Data.Int.Log
import Mathlib.Data.Rat.Floor
import Mathlib.Tactic.Positivity
import AccessoryController.Library.Binary32Arithmetic

/-!
# Nine significant digits

A decimal with nine significant digits is near enough to a single-precision number to be rounded
to it again: its relative error is below a quarter of the number's last place.

## Main definitions

* `Binary32.decimalExponent`, `decimalDigits`: a magnitude with nine digits

## Main results

* `roundBits_of_near`: a ratio near a number is rounded to it
* `roundBits_decimal`: nine digits are enough
-/

namespace Binary32

/-! ### Ratios near a number -/

/-- A ratio less than half a unit away from an integer. -/
theorem nearestEven_of_near {a b n : ℕ} (hb : 0 < b) (hlow : 2 * (n * b) < 2 * a + b)
    (hhigh : 2 * a < 2 * (n * b) + b) : nearestEven a b = n := by
  have hsplit := Nat.div_add_mod a b
  have hrest := Nat.mod_lt a hb
  rcases Nat.lt_or_ge a (n * b) with hlt | hge
  · -- below the integer the remainder is more than half of the unit
    obtain ⟨m, rfl⟩ : ∃ m, n = m + 1 := by
      refine Nat.exists_eq_succ_of_ne_zero ?_
      rintro rfl
      rw [Nat.zero_mul] at hlt
      exact absurd hlt (Nat.not_lt_zero a)
    rw [Nat.add_mul, Nat.one_mul] at hlow hhigh hlt
    have hquotient : a / b = m := by
      refine Nat.div_eq_of_lt_le ?_ ?_
      · omega
      · rw [Nat.add_mul, Nat.one_mul]
        exact hlt
    rw [hquotient, Nat.mul_comm] at hsplit
    rw [nearestEven, hquotient, if_neg (by omega), if_pos (by omega)]
  · have hquotient : a / b = n := by
      refine Nat.div_eq_of_lt_le hge ?_
      rw [Nat.add_mul, Nat.one_mul]
      omega
    rw [hquotient, Nat.mul_comm] at hsplit
    rw [nearestEven, hquotient, if_pos (by omega)]

theorem ulpExponent_eq {a b e : ℕ} (hb : 0 < b) (hlow : e = 0 ∨ 2 ^ (23 + e) * b ≤ a)
    (hhigh : a < 2 ^ (24 + e) * b) : ulpExponent a b = e := by
  have hdiv : a / b < 2 ^ (24 + e) := (Nat.div_lt_iff_lt_mul hb).mpr hhigh
  have hlog : Nat.log 2 (a / b) < 24 + e := by
    by_cases hzero : a / b = 0
    · rw [hzero, Nat.log_zero_right]
      omega
    · exact (Nat.log_lt_iff_lt_pow Nat.one_lt_two hzero).mpr hdiv
  rcases hlow with rfl | hlow
  · unfold ulpExponent
    omega
  · have hge : 2 ^ (23 + e) ≤ a / b := (Nat.le_div_iff_mul_le hb).mpr hlow
    have hpow : 23 + e ≤ Nat.log 2 (a / b) := Nat.le_log_of_pow_le Nat.one_lt_two hge
    unfold ulpExponent
    omega

/-- A significand in a binade, and a ratio that is less than a quarter of a unit away. -/
theorem roundBits_of_significand {a b e s : ℕ} (hb : 0 < b) (hs : s < 2 ^ 24)
    (hnormal : e = 0 ∨ 2 ^ 23 ≤ s) (hlow : 4 * (s * (b * 2 ^ e)) < 4 * a + b * 2 ^ e)
    (hhigh : 4 * a < 4 * (s * (b * 2 ^ e)) + b * 2 ^ e)
    (hfit : e * 2 ^ 23 + s ≤ infinityBits) : roundBits a b = e * 2 ^ 23 + s := by
  have hunit : 0 < b * 2 ^ e := Nat.mul_pos hb (Nat.two_pow_pos e)
  have hpow : ∀ k, 2 ^ (k + e) * b = 2 ^ k * (b * 2 ^ e) := fun k => by ring
  have htop : a < 2 ^ (24 + e) * b := by
    rw [hpow]
    have : s * (b * 2 ^ e) + b * 2 ^ e ≤ 2 ^ 24 * (b * 2 ^ e) := by
      rw [← Nat.succ_mul]
      exact Nat.mul_le_mul_right _ hs
    omega
  by_cases hbinade : e = 0 ∨ 2 ^ (23 + e) * b ≤ a
  · have hnear : nearestEven a (b * 2 ^ e) = s :=
      nearestEven_of_near hunit (by omega) (by omega)
    rw [roundBits, ulpExponent_eq hb hbinade htop, hnear, min_eq_left hfit]
  · -- just below a power of two the unit is half as long
    obtain ⟨hne, hbelow⟩ := not_or.mp hbinade
    obtain ⟨d, rfl⟩ : ∃ d, e = d + 1 := Nat.exists_eq_succ_of_ne_zero hne
    rw [Nat.not_le, hpow] at hbelow
    have hspow : s = 2 ^ 23 := by
      have hge := hnormal.resolve_left hne
      refine Nat.le_antisymm ?_ hge
      by_contra hlt
      have : (2 ^ 23 + 1) * (b * 2 ^ (d + 1)) ≤ s * (b * 2 ^ (d + 1)) :=
        Nat.mul_le_mul_right _ (by omega)
      rw [Nat.add_mul, Nat.one_mul] at this
      omega
    subst hspow
    have hhalf : b * 2 ^ (d + 1) = 2 * (b * 2 ^ d) := by ring
    have hpow' : ∀ k, 2 ^ (k + d) * b = 2 ^ k * (b * 2 ^ d) := fun k => by ring
    rw [hhalf] at hlow hhigh hbelow
    have hunit' : 0 < b * 2 ^ d := Nat.mul_pos hb (Nat.two_pow_pos d)
    have hulp : ulpExponent a b = d := by
      refine ulpExponent_eq hb (.inr ?_) ?_
      · rw [hpow']
        omega
      · rw [hpow']
        omega
    have hnear : nearestEven a (b * 2 ^ d) = 2 ^ 24 :=
      nearestEven_of_near hunit' (by omega) (by omega)
    rw [roundBits, hulp, hnear]
    have hcarry : d * 2 ^ 23 + 2 ^ 24 = (d + 1) * 2 ^ 23 + 2 ^ 23 := by ring
    rw [hcarry, min_eq_left hfit]

/-- **A ratio near a number** is rounded to it. -/
theorem roundBits_of_near {a b bits : ℕ} (hb : 0 < b) (hbits : bits < infinityBits)
    (hlow : 2 ^ 26 * (magnitudeOf bits * b) ≤ 2 ^ 26 * a + magnitudeOf bits * b)
    (hhigh : 2 ^ 26 * a ≤ 2 ^ 26 * (magnitudeOf bits * b) + magnitudeOf bits * b) :
    roundBits a b = bits := by
  have hfraction := Nat.mod_lt bits (Nat.two_pow_pos 23)
  have hsplit := Nat.div_add_mod bits (2 ^ 23)
  -- the significand and the exponent of the unit
  obtain ⟨s, e, hs, hnormal, hmagnitude, hpattern⟩ : ∃ s e, s < 2 ^ 24 ∧ (e = 0 ∨ 2 ^ 23 ≤ s) ∧
      magnitudeOf bits = s * 2 ^ e ∧ bits = e * 2 ^ 23 + s := by
    by_cases hzero : bits / 2 ^ 23 = 0
    · refine ⟨bits % 2 ^ 23, 0, by omega, .inl rfl, ?_, by omega⟩
      rw [magnitudeOf, if_pos hzero, Nat.pow_zero, Nat.mul_one]
    · refine ⟨2 ^ 23 + bits % 2 ^ 23, bits / 2 ^ 23 - 1, by omega, .inr (by omega), ?_, by omega⟩
      rw [magnitudeOf, if_neg hzero]
  have hscaled : magnitudeOf bits * b = s * (b * 2 ^ e) := by
    rw [hmagnitude]
    ring
  have hunit : 0 < b * 2 ^ e := Nat.mul_pos hb (Nat.two_pow_pos e)
  have herror : 4 * (s * (b * 2 ^ e)) < 2 ^ 26 * (b * 2 ^ e) := by
    rw [← Nat.mul_assoc]
    exact Nat.mul_lt_mul_of_pos_right (by omega) hunit
  rw [hscaled] at hlow hhigh
  have hbelow : 4 * (s * (b * 2 ^ e)) < 4 * a + b * 2 ^ e := by omega
  have habove : 4 * a < 4 * (s * (b * 2 ^ e)) + b * 2 ^ e := by omega
  rw [roundBits_of_significand hb hs hnormal hbelow habove (by omega), ← hpattern]

/-! ### Nine digits -/

/-- The value of a magnitude. -/
def magnitudeValue (magnitude : ℕ) : ℚ := magnitude / 2 ^ 149

/-- The decimal exponent of the last of nine significant digits. -/
def decimalExponent (magnitude : ℕ) : ℤ := Int.log 10 (magnitudeValue magnitude) - 8

/-- The nine significant digits, as an integer. -/
def decimalDigits (magnitude : ℕ) : ℕ :=
  ⌊magnitudeValue magnitude / 10 ^ decimalExponent magnitude + 1 / 2⌋₊

section

variable {magnitude : ℕ} (hpos : 0 < magnitude)

include hpos

theorem magnitudeValue_pos : 0 < magnitudeValue magnitude := by
  have : (0 : ℚ) < magnitude := Nat.cast_pos.mpr hpos
  unfold magnitudeValue
  positivity

/-- The first digit is not zero. -/
theorem le_magnitudeValue :
    10 ^ 8 * (10 : ℚ) ^ decimalExponent magnitude ≤ magnitudeValue magnitude := by
  have hlog := Int.zpow_log_le_self (b := 10) (by decide) (magnitudeValue_pos hpos)
  rw [Nat.cast_ofNat] at hlog
  have hsplit : (10 : ℚ) ^ Int.log 10 (magnitudeValue magnitude) =
      10 ^ 8 * 10 ^ decimalExponent magnitude := by
    rw [decimalExponent, ← zpow_natCast, ← zpow_add₀ (by norm_num)]
    congr 1
    omega
  rwa [hsplit] at hlog

omit hpos in
theorem magnitudeValue_lt :
    magnitudeValue magnitude < 10 ^ 9 * (10 : ℚ) ^ decimalExponent magnitude := by
  have hlog := Int.lt_zpow_succ_log_self (b := 10) (by decide) (magnitudeValue magnitude)
  rw [Nat.cast_ofNat] at hlog
  have hsplit : (10 : ℚ) ^ (Int.log 10 (magnitudeValue magnitude) + 1) =
      10 ^ 9 * 10 ^ decimalExponent magnitude := by
    rw [decimalExponent, ← zpow_natCast, ← zpow_add₀ (by norm_num)]
    congr 1
    omega
  rwa [hsplit] at hlog

/-- The digits are off by at most half of the last one. -/
theorem decimal_near :
    decimalDigits magnitude * (10 : ℚ) ^ decimalExponent magnitude ≤
        magnitudeValue magnitude + 10 ^ decimalExponent magnitude / 2 ∧
      magnitudeValue magnitude ≤
        decimalDigits magnitude * (10 : ℚ) ^ decimalExponent magnitude +
          10 ^ decimalExponent magnitude / 2 := by
  have hunit : (0 : ℚ) < 10 ^ decimalExponent magnitude := zpow_pos (by norm_num) _
  have hvalue := magnitudeValue_pos hpos
  have hratio : 0 ≤ magnitudeValue magnitude / 10 ^ decimalExponent magnitude + 1 / 2 := by
    positivity
  have hfloor := Nat.floor_le hratio
  have hceil := Nat.lt_floor_add_one
    (magnitudeValue magnitude / 10 ^ decimalExponent magnitude + 1 / 2)
  change (decimalDigits magnitude : ℚ) ≤ _ at hfloor
  change _ < (decimalDigits magnitude : ℚ) + 1 at hceil
  have hcancel : magnitudeValue magnitude / 10 ^ decimalExponent magnitude *
      10 ^ decimalExponent magnitude = magnitudeValue magnitude :=
    div_mul_cancel₀ _ hunit.ne'
  generalize (10 : ℚ) ^ decimalExponent magnitude = unit at *
  constructor
  · calc
      decimalDigits magnitude * unit
          ≤ (magnitudeValue magnitude / unit + 1 / 2) * unit :=
        mul_le_mul_of_nonneg_right hfloor hunit.le
      _ = magnitudeValue magnitude + unit / 2 := by rw [add_mul, hcancel]; ring
  · have hscaled := mul_le_mul_of_nonneg_right hceil.le hunit.le
    rw [add_mul, add_mul, hcancel] at hscaled
    linarith

omit hpos in
theorem decimalDigits_le : decimalDigits magnitude ≤ 10 ^ 9 := by
  have hunit : (0 : ℚ) < 10 ^ decimalExponent magnitude := zpow_pos (by norm_num) _
  have hlt := @magnitudeValue_lt magnitude
  rw [← div_lt_iff₀ hunit] at hlt
  refine Nat.lt_succ_iff.mp ((Nat.floor_lt' (Nat.succ_ne_zero _)).mpr ?_)
  push_cast
  linarith

/-- The exponents of the finite numbers. -/
theorem decimalExponent_bounds (hfinite : magnitude < 2 ^ 128 * 2 ^ 149) :
    -53 ≤ decimalExponent magnitude ∧ decimalExponent magnitude ≤ 30 := by
  have hvalue := magnitudeValue_pos hpos
  have hlow : (-45 : ℤ) ≤ Int.log 10 (magnitudeValue magnitude) := by
    rw [← Int.zpow_le_iff_le_log (by decide) hvalue, magnitudeValue, le_div_iff₀ (by positivity)]
    have : (1 : ℚ) ≤ magnitude := Nat.one_le_cast.mpr hpos
    refine le_trans ?_ this
    norm_num
  have hhigh : Int.log 10 (magnitudeValue magnitude) < 39 := by
    rw [← Int.lt_zpow_iff_log_lt (by decide) hvalue, magnitudeValue, div_lt_iff₀ (by positivity)]
    have hbound : (magnitude : ℚ) < 2 ^ 128 * 2 ^ 149 := by exact_mod_cast hfinite
    refine lt_trans hbound (mul_lt_mul_of_pos_right ?_ (by positivity))
    norm_num
  unfold decimalExponent
  omega

/-- **Nine digits are enough.** A decimal is rounded to the number that it was written for. -/
theorem roundBits_decimal {bits : ℕ} (hbits : bits < infinityBits)
    (hmagnitude : magnitudeOf bits = magnitude) {value : ℚ}
    (hvalue : value = decimalDigits magnitude * 10 ^ decimalExponent magnitude) :
    roundBits (value.num.toNat * 2 ^ 149) value.den = bits := by
  obtain ⟨hhigh, hlow⟩ := decimal_near hpos
  have hfirst := le_magnitudeValue hpos
  have hunit : (0 : ℚ) < 10 ^ decimalExponent magnitude := zpow_pos (by norm_num) _
  rw [← hvalue] at hhigh hlow
  have hnonneg : 0 ≤ value := by
    rw [hvalue]
    positivity
  have hnum : ((value.num.toNat : ℕ) : ℚ) = value * value.den := by
    have : ((value.num.toNat : ℕ) : ℤ) = value.num := Int.toNat_of_nonneg (Rat.num_nonneg.mpr hnonneg)
    rw [← Int.cast_natCast, this, Rat.mul_den_eq_num]
  have hden : (0 : ℚ) < value.den := Nat.cast_pos.mpr value.den_pos
  have hunits : (magnitude : ℚ) = magnitudeValue magnitude * 2 ^ 149 := by
    rw [magnitudeValue, div_mul_cancel₀ _ (by positivity)]
  generalize (10 : ℚ) ^ decimalExponent magnitude = unit at *
  have hscale : (0 : ℚ) < 2 ^ 149 * value.den := by positivity
  refine roundBits_of_near value.den_pos hbits ?_ ?_
  · rw [hmagnitude]
    have hreal : 2 ^ 26 * (magnitudeValue magnitude * (2 ^ 149 * value.den)) ≤
        2 ^ 26 * (value * (2 ^ 149 * value.den)) +
          magnitudeValue magnitude * (2 ^ 149 * value.den) := by
      have : 2 ^ 26 * magnitudeValue magnitude ≤ 2 ^ 26 * value + magnitudeValue magnitude := by
        linarith
      have := mul_le_mul_of_nonneg_right this hscale.le
      linarith
    have hcast : ((2 ^ 26 * (magnitude * value.den) : ℕ) : ℚ) ≤
        ((2 ^ 26 * (value.num.toNat * 2 ^ 149) + magnitude * value.den : ℕ) : ℚ) := by
      push_cast
      rw [hnum, hunits]
      linarith
    exact_mod_cast hcast
  · rw [hmagnitude]
    have hreal : 2 ^ 26 * (value * (2 ^ 149 * value.den)) ≤
        2 ^ 26 * (magnitudeValue magnitude * (2 ^ 149 * value.den)) +
          magnitudeValue magnitude * (2 ^ 149 * value.den) := by
      have : 2 ^ 26 * value ≤ 2 ^ 26 * magnitudeValue magnitude + magnitudeValue magnitude := by
        linarith
      have := mul_le_mul_of_nonneg_right this hscale.le
      linarith
    have hcast : ((2 ^ 26 * (value.num.toNat * 2 ^ 149) : ℕ) : ℚ) ≤
        ((2 ^ 26 * (magnitude * value.den) + magnitude * value.den : ℕ) : ℚ) := by
      push_cast
      rw [hnum, hunits]
      linarith
    exact_mod_cast hcast

end

end Binary32
