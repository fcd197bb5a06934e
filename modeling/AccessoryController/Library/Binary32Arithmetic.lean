import AccessoryController.Library.Binary32
import Mathlib.Data.Nat.Log
import Mathlib.Tactic.Ring

/-!
# Arithmetic of binary32 numbers

The four operations, rounded to the nearest number with ties to even. The magnitude of an exact
result is a ratio of naturals in units of the smallest positive number. The patterns of the
nonnegative numbers are ordered as their values are, so a rounded magnitude is again a pattern:
the binade of the ratio counts how many times `2 ^ 23` patterns lie below, and the significand is
the ratio rounded to a multiple of the binade's unit. A carry out of the significand and an
overflow to infinity need no case of their own.

## Main definitions

* `Binary32.nearestEven a b`: the integer nearest to `a / b`
* `Binary32.roundBits a b`: the pattern nearest to `a / b`
* `Binary32.add`, `sub`, `mul`, `div`: the operations

## Main results

* `roundBits_mono`: rounding is monotone
* `roundBits_magnitudeOf`: rounding fixes the numbers
* `sub_between`: a difference inside an interval of finite length is finite and no longer
* `isFinite_div`: a ratio of at most one is finite
-/

namespace Binary32

/-- The integer nearest to `a / b`, the even one if there are two. -/
def nearestEven (a b : ℕ) : ℕ :=
  if 2 * (a % b) < b then a / b
  else if b < 2 * (a % b) then a / b + 1
  else a / b + a / b % 2

/-- The pattern of infinity. -/
def infinityBits : ℕ := 255 * 2 ^ 23

/-- The exponent of the unit in the last place of `a / b`. -/
def ulpExponent (a b : ℕ) : ℕ := Nat.log 2 (a / b) - 23

/-- The pattern of the magnitude nearest to `a / b`, which is infinity from the overflow threshold
on. -/
def roundBits (a b : ℕ) : ℕ :=
  min (ulpExponent a b * 2 ^ 23 + nearestEven a (b * 2 ^ ulpExponent a b)) infinityBits

/-- The magnitude of a pattern without its sign. -/
def magnitudeOf (bits : ℕ) : ℕ :=
  if bits / 2 ^ 23 = 0 then bits % 2 ^ 23 else (2 ^ 23 + bits % 2 ^ 23) * 2 ^ (bits / 2 ^ 23 - 1)

/-- The number with a sign and a pattern of its magnitude. -/
def signed (negative : Bool) (bits : ℕ) : Binary32 :=
  ⟨UInt32.ofNat (bits + if negative then 2 ^ 31 else 0)⟩

def nan : Binary32 := signed false (infinityBits + 2 ^ 22)

def neg (x : Binary32) : Binary32 := signed (!x.negative) (x.bits.toNat % 2 ^ 31)

def add (x y : Binary32) : Binary32 :=
  if x.isNaN || y.isNaN then nan
  else if !x.isFinite then
    if !y.isFinite && x.negative != y.negative then nan else x
  else if !y.isFinite then y
  else if x.units + y.units = 0 then signed (x.negative && y.negative) 0
  else signed (decide (x.units + y.units < 0)) (roundBits (x.units + y.units).natAbs 1)

def sub (x y : Binary32) : Binary32 := add x y.neg

def mul (x y : Binary32) : Binary32 :=
  let negative := x.negative ^^ y.negative
  if x.isNaN || y.isNaN then nan
  else if !x.isFinite || !y.isFinite then
    if x.units = 0 ∨ y.units = 0 then nan else signed negative infinityBits
  else signed negative (roundBits (x.magnitude * y.magnitude) (2 ^ 149))

def div (x y : Binary32) : Binary32 :=
  let negative := x.negative ^^ y.negative
  if x.isNaN || y.isNaN then nan
  else if !x.isFinite then if !y.isFinite then nan else signed negative infinityBits
  else if !y.isFinite then signed negative 0
  else if y.magnitude = 0 then
    if x.magnitude = 0 then nan else signed negative infinityBits
  else signed negative (roundBits (x.magnitude * 2 ^ 149) y.magnitude)

-- 1 / 3, 0.1 + 0.2 and the overflow of twice the largest number
example : div ⟨0x3f800000⟩ ⟨0x40400000⟩ = ⟨0x3eaaaaab⟩ ∧
    add ⟨0x3dcccccd⟩ ⟨0x3e4ccccd⟩ = ⟨0x3e99999a⟩ ∧
    mul ⟨0x7f7fffff⟩ ⟨0x40000000⟩ = ⟨0x7f800000⟩ := by
  decide +kernel

/-! ### Rounding -/

theorem le_nearestEven (a b : ℕ) : a / b ≤ nearestEven a b := by
  unfold nearestEven
  split
  · exact Nat.le_refl _
  split
  · exact Nat.le_succ _
  · exact Nat.le_add_right _ _

theorem nearestEven_le (a b : ℕ) : nearestEven a b ≤ a / b + 1 := by
  have := Nat.mod_lt (a / b) (Nat.succ_pos 1)
  unfold nearestEven
  split
  · exact Nat.le_succ _
  split
  · exact Nat.le_refl _
  · omega

variable {b bits : ℕ} {negative : Bool} {x y : Binary32}

/-- A multiple of the unit is its own nearest integer. -/
theorem nearestEven_mul (n : ℕ) (hb : 0 < b) : nearestEven (n * b) b = n := by
  rw [nearestEven, Nat.mul_mod_left, Nat.mul_div_cancel n hb, if_pos (by omega)]

theorem div_le_div_of_ratio {a c d : ℕ} (hb : 0 < b) (hd : 0 < d) (h : a * d ≤ c * b) :
    a / b ≤ c / d := by
  rw [Nat.le_div_iff_mul_le hd]
  refine Nat.le_of_mul_le_mul_right ?_ hb
  calc
    a / b * d * b = a / b * b * d := by ring
    _ ≤ a * d := Nat.mul_le_mul_right d (Nat.div_mul_le_self a b)
    _ ≤ c * b := h

/-- Rounding to integers is monotone in the ratio. -/
theorem nearestEven_mono {a c d : ℕ} (hb : 0 < b) (hd : 0 < d) (h : a * d ≤ c * b) :
    nearestEven a b ≤ nearestEven c d := by
  rcases Nat.lt_or_eq_of_le (div_le_div_of_ratio hb hd h) with hlt | heq
  · exact Nat.le_trans (nearestEven_le a b) (Nat.le_trans hlt (le_nearestEven c d))
  · -- in the same unit interval the remainders are ordered as the ratios are
    have hrest : a % b * d ≤ c % d * b := by
      have ha := Nat.div_add_mod a b
      have hc := Nat.div_add_mod c d
      rw [heq] at ha
      have : (b * (c / d) + a % b) * d ≤ (d * (c / d) + c % d) * b := by rwa [ha, hc]
      have hsame : b * (c / d) * d = d * (c / d) * b := by ring
      rw [Nat.add_mul, Nat.add_mul, hsame] at this
      exact Nat.le_of_add_le_add_left this
    have hup : b < 2 * (a % b) → d < 2 * (c % d) := by
      intro hlt
      refine Nat.lt_of_mul_lt_mul_right (a := b) ?_
      calc
        d * b = b * d := Nat.mul_comm d b
        _ < 2 * (a % b) * d := Nat.mul_lt_mul_of_pos_right hlt hd
        _ = 2 * (a % b * d) := by ring
        _ ≤ 2 * (c % d * b) := Nat.mul_le_mul_left 2 hrest
        _ = 2 * (c % d) * b := by ring
    have htie : b ≤ 2 * (a % b) → d ≤ 2 * (c % d) := by
      intro hle
      refine Nat.le_of_mul_le_mul_right (c := b) ?_ hb
      calc
        d * b = b * d := Nat.mul_comm d b
        _ ≤ 2 * (a % b) * d := Nat.mul_le_mul_right d hle
        _ = 2 * (a % b * d) := by ring
        _ ≤ 2 * (c % d * b) := Nat.mul_le_mul_left 2 hrest
        _ = 2 * (c % d) * b := by ring
    have hparity := Nat.mod_lt (c / d) (Nat.succ_pos 1)
    unfold nearestEven
    rw [heq]
    split_ifs <;> omega

/-- The significand of a ratio lies in its binade. -/
theorem div_ulp_lt (a b : ℕ) : a / (b * 2 ^ ulpExponent a b) < 2 ^ 24 := by
  rw [← Nat.div_div_eq_div_mul, Nat.div_lt_iff_lt_mul (Nat.two_pow_pos _), ← Nat.pow_add]
  refine Nat.lt_of_lt_of_le (Nat.lt_pow_succ_log_self Nat.one_lt_two _) ?_
  refine Nat.pow_le_pow_right (Nat.succ_pos 1) ?_
  unfold ulpExponent
  omega

theorem le_div_ulp {a : ℕ} (he : ulpExponent a b ≠ 0) : 2 ^ 23 ≤ a / (b * 2 ^ ulpExponent a b) := by
  have hlog : 23 + ulpExponent a b = Nat.log 2 (a / b) := by
    unfold ulpExponent at he ⊢
    omega
  have hpos : a / b ≠ 0 := by
    intro hzero
    rw [hzero, Nat.log_zero_right] at hlog
    omega
  rw [← Nat.div_div_eq_div_mul, Nat.le_div_iff_mul_le (Nat.two_pow_pos _), ← Nat.pow_add, hlog]
  exact Nat.pow_log_le_self 2 hpos

/-- **Rounding is monotone** in the ratio. -/
theorem roundBits_mono {a c d : ℕ} (hb : 0 < b) (hd : 0 < d) (h : a * d ≤ c * b) :
    roundBits a b ≤ roundBits c d := by
  refine min_le_min_right _ ?_
  have hexp : ulpExponent a b ≤ ulpExponent c d :=
    Nat.sub_le_sub_right (Nat.log_mono_right (div_le_div_of_ratio hb hd h)) 23
  rcases Nat.lt_or_eq_of_le hexp with hlt | heq
  · -- a lower binade ends where the next one starts
    have hlow := Nat.le_trans (nearestEven_le a (b * 2 ^ ulpExponent a b)) (div_ulp_lt a b)
    have hhigh := Nat.le_trans (le_div_ulp (a := c) (b := d) (by omega))
      (le_nearestEven c (d * 2 ^ ulpExponent c d))
    omega
  · rw [heq]
    refine Nat.add_le_add_left (nearestEven_mono ?_ ?_ ?_) _
    · exact Nat.mul_pos hb (Nat.two_pow_pos _)
    · exact Nat.mul_pos hd (Nat.two_pow_pos _)
    · calc
        a * (d * 2 ^ ulpExponent c d) = a * d * 2 ^ ulpExponent c d := by ring
        _ ≤ c * b * 2 ^ ulpExponent c d := Nat.mul_le_mul_right _ h
        _ = c * (b * 2 ^ ulpExponent c d) := by ring

theorem roundBits_le (a b : ℕ) : roundBits a b ≤ infinityBits := min_le_right _ _

/-- **Rounding fixes the numbers.** -/
theorem roundBits_magnitudeOf (h : bits ≤ infinityBits) :
    roundBits (magnitudeOf bits) 1 = bits := by
  have hfraction := Nat.mod_lt bits (Nat.two_pow_pos 23)
  have hsplit := Nat.div_add_mod bits (2 ^ 23)
  generalize hf : bits % 2 ^ 23 = f at *
  generalize hE : bits / 2 ^ 23 = e at *
  rw [magnitudeOf, hf, hE]
  cases e with
  | zero =>
    have hulp : ulpExponent f 1 = 0 := by
      unfold ulpExponent
      rw [Nat.div_one]
      have : Nat.log 2 f < 23 ∨ f = 0 := by
        by_cases hzero : f = 0
        · exact .inr hzero
        · exact .inl ((Nat.log_lt_iff_lt_pow Nat.one_lt_two hzero).mpr hfraction)
      rcases this with hlt | rfl
      · omega
      · simp
    rw [if_pos rfl, roundBits, hulp]
    have hself := nearestEven_mul f (Nat.succ_pos 0)
    rw [Nat.mul_one] at hself
    rw [Nat.pow_zero, Nat.mul_one, hself]
    omega
  | succ e =>
    have hulp : ulpExponent ((2 ^ 23 + f) * 2 ^ e) 1 = e := by
      have hlog : Nat.log 2 ((2 ^ 23 + f) * 2 ^ e) = 23 + e := by
        apply Nat.log_eq_of_pow_le_of_lt_pow
        · rw [Nat.pow_add]
          exact Nat.mul_le_mul_right _ (Nat.le_add_right _ _)
        · have hnext : 2 ^ (23 + e + 1) = 2 ^ 24 * 2 ^ e := by ring
          rw [hnext]
          exact Nat.mul_lt_mul_of_pos_right (by omega) (Nat.two_pow_pos e)
      rw [ulpExponent, Nat.div_one, hlog, Nat.add_sub_cancel_left]
    rw [if_neg (Nat.succ_ne_zero e), Nat.add_sub_cancel, roundBits, hulp, Nat.one_mul,
      nearestEven_mul _ (Nat.two_pow_pos e)]
    omega

/-- The patterns are ordered as their magnitudes are. -/
theorem magnitudeOf_mono {m n : ℕ} (h : m ≤ n) : magnitudeOf m ≤ magnitudeOf n := by
  have hm := Nat.mod_lt m (Nat.two_pow_pos 23)
  have hsplit := Nat.div_add_mod m (2 ^ 23)
  have hsplit' := Nat.div_add_mod n (2 ^ 23)
  have hbinade : m / 2 ^ 23 ≤ n / 2 ^ 23 := Nat.div_le_div_right h
  rcases Nat.lt_or_eq_of_le hbinade with hlt | heq
  · -- the magnitudes of a binade are below the power of two that starts the next one
    have hend : magnitudeOf m ≤ 2 ^ 24 * 2 ^ (m / 2 ^ 23 - 1) := by
      unfold magnitudeOf
      split
      · exact Nat.le_trans (by omega) (Nat.le_mul_of_pos_right _ (Nat.two_pow_pos _))
      · exact Nat.mul_le_mul_right _ (by omega)
    have hstart : 2 ^ 23 * 2 ^ (n / 2 ^ 23 - 1) ≤ magnitudeOf n := by
      rw [magnitudeOf, if_neg (Nat.ne_of_gt (Nat.zero_lt_of_lt hlt))]
      exact Nat.mul_le_mul_right _ (Nat.le_add_right _ _)
    by_cases hzero : m / 2 ^ 23 = 0
    · have hself : magnitudeOf m = m % 2 ^ 23 := if_pos hzero
      have hpos := Nat.two_pow_pos (n / 2 ^ 23 - 1)
      rw [hself]
      exact Nat.le_trans (Nat.le_trans (Nat.le_of_lt hm) (Nat.le_mul_of_pos_right _ hpos)) hstart
    · have hpow : 2 ^ (m / 2 ^ 23) ≤ 2 ^ (n / 2 ^ 23 - 1) :=
        Nat.pow_le_pow_right Nat.two_pos (Nat.le_sub_one_of_lt hlt)
      have hdouble : 2 ^ (m / 2 ^ 23) = 2 ^ (m / 2 ^ 23 - 1) * 2 := by
        rw [← Nat.pow_succ, Nat.succ_eq_add_one, Nat.sub_add_cancel (Nat.pos_of_ne_zero hzero)]
      omega
  · have hf : m % 2 ^ 23 ≤ n % 2 ^ 23 := by omega
    unfold magnitudeOf
    rw [heq]
    split
    · exact hf
    · exact Nat.mul_le_mul_right _ (Nat.add_le_add_left hf _)

/-! ### The class of a result -/

theorem toNat_signed (h : bits < 2 ^ 31) :
    (signed negative bits).bits.toNat = bits + if negative then 2 ^ 31 else 0 := by
  rw [signed, UInt32.toNat_ofNat']
  refine Nat.mod_eq_of_lt ?_
  split <;> omega

theorem exponent_signed (h : bits < 2 ^ 31) : (signed negative bits).exponent = bits / 2 ^ 23 := by
  rw [exponent, toNat_signed h]
  split <;> omega

theorem fraction_signed (h : bits < 2 ^ 31) : (signed negative bits).fraction = bits % 2 ^ 23 := by
  rw [fraction, toNat_signed h]
  split <;> omega

theorem magnitude_signed (h : bits < 2 ^ 31) :
    (signed negative bits).magnitude = magnitudeOf bits := by
  rw [magnitude, magnitudeOf, exponent_signed h, fraction_signed h]

theorem lt_of_le_infinityBits (h : bits ≤ infinityBits) : bits < 2 ^ 31 :=
  Nat.lt_of_le_of_lt h (by decide)

theorem isNaN_signed (h : bits ≤ infinityBits) : (signed negative bits).isNaN = false := by
  unfold infinityBits at h
  rw [isNaN, exponent_signed (by omega), fraction_signed (by omega)]
  by_cases hlast : bits / 2 ^ 23 = 255
  · have : bits % 2 ^ 23 = 0 := by omega
    rw [this, bne_self_eq_false, Bool.and_false]
  · rw [beq_eq_false_iff_ne.mpr hlast, Bool.false_and]

theorem isFinite_signed (h : bits < 2 ^ 31) :
    (signed negative bits).isFinite = true ↔ bits < infinityBits := by
  rw [isFinite, exponent_signed h, decide_eq_true_iff, Nat.div_lt_iff_lt_mul (Nat.two_pow_pos _)]
  rfl

theorem isFinite_neg (x : Binary32) : x.neg.isFinite = x.isFinite := by
  have hbits : x.bits.toNat % 2 ^ 31 < 2 ^ 31 := Nat.mod_lt _ (Nat.two_pow_pos 31)
  have hexp : x.bits.toNat % 2 ^ 31 / 2 ^ 23 = x.bits.toNat / 2 ^ 23 % 2 ^ 8 := by omega
  rw [neg, isFinite, exponent_signed hbits, hexp]
  rfl

theorem units_neg (x : Binary32) : x.neg.units = -x.units := by
  have hbits : x.bits.toNat % 2 ^ 31 < 2 ^ 31 := Nat.mod_lt _ (Nat.two_pow_pos 31)
  have hexp : x.bits.toNat % 2 ^ 31 / 2 ^ 23 = x.exponent := by
    unfold exponent
    omega
  have hfrac : x.bits.toNat % 2 ^ 31 % 2 ^ 23 = x.fraction := by
    unfold fraction
    omega
  have hmagnitude : x.neg.magnitude = x.magnitude := by
    rw [neg, magnitude_signed hbits, magnitudeOf, hexp, hfrac]
    rfl
  have hsign : x.neg.negative = !x.negative := by
    rw [neg, negative, toNat_signed hbits]
    cases x.negative <;> simp
    omega
  rw [units, units, hmagnitude, hsign]
  cases x.negative <;> simp

section

variable (hx : x.isFinite = true)
include hx

/-- A sum with a finite term is a number if the other term is. -/
theorem isNaN_add (hy : y.isNaN = false) : (add x y).isNaN = false := by
  rw [add, isNaN_of_isFinite hx, hy, hx]
  rw [if_neg (by simp), if_neg (by simp)]
  split
  · exact hy
  split
  · exact isNaN_signed (Nat.zero_le _)
  · exact isNaN_signed (roundBits_le _ _)

/-- A product of finite numbers is a number. -/
theorem isNaN_mul (hy : y.isFinite = true) : (mul x y).isNaN = false := by
  rw [mul, isNaN_of_isFinite hx, isNaN_of_isFinite hy, hx, hy]
  exact isNaN_signed (roundBits_le _ _)

/-- The difference of finite numbers with `x < y`. -/
theorem sub_of_lt (hy : y.isFinite = true) (h : x.units < y.units) :
    sub y x = signed false (roundBits (y.units - x.units).toNat 1) := by
  have hneg : x.neg.isFinite = true := by rw [isFinite_neg, hx]
  have hsum : y.units + x.neg.units = y.units - x.units := by rw [units_neg]; rfl
  have hpos : ¬ y.units - x.units < 0 := by omega
  have habs : (y.units - x.units).natAbs = (y.units - x.units).toNat := by omega
  rw [sub, add, isNaN_of_isFinite hy, isNaN_of_isFinite hneg, hy, hneg, hsum, if_neg (by simp),
    if_neg (by simp), if_neg (by simp), if_neg (by omega), decide_eq_false hpos, habs]

/-- **A difference inside an interval** of finite length is finite and at most the length. -/
theorem sub_between {v : Binary32} (hv : v.isFinite = true) (hy : y.isFinite = true)
    (hlow : x.units < v.units) (hhigh : v.units ≤ y.units) (hlength : (sub y x).isFinite = true) :
    (sub v x).isFinite = true ∧ (sub v x).magnitude ≤ (sub y x).magnitude := by
  rw [sub_of_lt hx hy (Int.lt_of_lt_of_le hlow hhigh)] at hlength ⊢
  rw [sub_of_lt hx hv hlow]
  have hle : roundBits (v.units - x.units).toNat 1 ≤ roundBits (y.units - x.units).toNat 1 :=
    roundBits_mono Nat.one_pos Nat.one_pos (by omega)
  have hbits := fun n => lt_of_le_infinityBits (roundBits_le n 1)
  rw [isFinite_signed (hbits _)] at hlength ⊢
  rw [magnitude_signed (hbits _), magnitude_signed (hbits _)]
  exact ⟨Nat.lt_of_le_of_lt hle hlength, magnitudeOf_mono hle⟩

/-- Distinct finite numbers have a nonzero difference. -/
theorem magnitude_sub_pos (hy : y.isFinite = true) (h : x.units < y.units) :
    0 < (sub y x).magnitude := by
  have hone : roundBits (magnitudeOf 1) 1 ≤ roundBits (y.units - x.units).toNat 1 := by
    refine roundBits_mono Nat.one_pos Nat.one_pos ?_
    have : magnitudeOf 1 = 1 := by decide
    omega
  rw [roundBits_magnitudeOf (by decide)] at hone
  rw [sub_of_lt hx hy h, magnitude_signed (lt_of_le_infinityBits (roundBits_le _ _))]
  exact Nat.lt_of_lt_of_le Nat.one_pos (magnitudeOf_mono hone)

/-- **A ratio of at most one** is finite. -/
theorem isFinite_div (hy : y.isFinite = true) (hpos : 0 < y.magnitude)
    (hle : x.magnitude ≤ y.magnitude) : (div x y).isFinite = true := by
  have hone : magnitudeOf (127 * 2 ^ 23) = 2 ^ 149 := by decide
  have hbound : roundBits (x.magnitude * 2 ^ 149) y.magnitude ≤ 127 * 2 ^ 23 := by
    have hfixed : roundBits (magnitudeOf (127 * 2 ^ 23)) 1 = 127 * 2 ^ 23 :=
      roundBits_magnitudeOf (by decide)
    rw [hone] at hfixed
    refine Nat.le_trans ?_ (Nat.le_of_eq hfixed)
    refine roundBits_mono hpos Nat.one_pos ?_
    rw [Nat.mul_one, Nat.mul_comm]
    exact Nat.mul_le_mul_left _ hle
  rw [div, isNaN_of_isFinite hx, isNaN_of_isFinite hy, hx, hy, if_neg (by simp), if_neg (by simp),
    if_neg (by simp), if_neg (Nat.ne_of_gt hpos),
    isFinite_signed (lt_of_le_infinityBits (roundBits_le _ _))]
  exact Nat.lt_of_le_of_lt hbound (by decide)

end

end Binary32
