import Mathlib.Algebra.Group.Nat.Defs
import Mathlib.Data.List.Induction

/-!
# Big-endian numbers in byte strings

A number is written with its most significant byte first. A word that is shifted by one byte for
each byte that comes holds the number, as long as the bytes fit it.

## Main definitions

* `BigEndian.bytes count n`: the last `count` bytes of `n`
* `BigEndian.value bytes`: the number that bytes give
* `BigEndian.word w bytes`: the same, shifted into a word of `w` bits

## Main results

* `BigEndian.value_bytes`: a number written is the number read
* `BigEndian.toNat_word`: a word holds the number that fits it
-/

namespace BigEndian

/-- The last `count` bytes of a number. -/
def bytes : ℕ → ℕ → List UInt8
  | 0, _ => []
  | count + 1, n => bytes count (n / 2 ^ 8) ++ [UInt8.ofNat n]

/-- The number that bytes give. -/
def value (bytes : List UInt8) : ℕ := bytes.foldl (fun n byte => n * 2 ^ 8 + byte.toNat) 0

/-- Bytes shifted into a word. -/
def word (w : ℕ) (bytes : List UInt8) : BitVec w :=
  bytes.foldl (fun word byte => (word <<< 8) ||| byte.toBitVec.setWidth w) 0

@[simp] theorem length_bytes (count n : ℕ) : (bytes count n).length = count := by
  induction count generalizing n with
  | zero => rfl
  | succ count ih => rw [bytes, List.length_append, ih, List.length_singleton]

theorem value_snoc (l : List UInt8) (byte : UInt8) :
    value (l ++ [byte]) = value l * 2 ^ 8 + byte.toNat := by
  rw [value, List.foldl_append]
  rfl

/-- **A number written is the number read**, up to the bytes that were written. -/
theorem value_bytes {count n : ℕ} (fits : n < 2 ^ (8 * count)) : value (bytes count n) = n := by
  induction count generalizing n with
  | zero => rw [Nat.mul_zero, Nat.pow_zero, Nat.lt_one_iff] at fits; subst fits; rfl
  | succ count ih =>
    have high : n / 2 ^ 8 < 2 ^ (8 * count) := by
      rw [Nat.mul_succ, Nat.pow_add] at fits
      exact (Nat.div_lt_iff_lt_mul (Nat.two_pow_pos 8)).mpr fits
    rw [bytes, value_snoc, ih high, UInt8.toNat_ofNat']
    omega

theorem value_lt (l : List UInt8) : value l < 2 ^ (8 * l.length) := by
  induction l using List.reverseRecOn with
  | nil => exact Nat.one_pos
  | append_singleton l byte ih =>
    have small := byte.toNat_lt
    have room : 2 ^ (8 * (l.length + 1)) = 2 ^ (8 * l.length) * 2 ^ 8 := by
      rw [Nat.mul_succ, Nat.pow_add]
    rw [value_snoc, List.length_append, List.length_singleton, room]
    omega

/-- **A word holds the number** of bytes that fit it. -/
theorem toNat_word {w : ℕ} {l : List UInt8} (fits : 8 * l.length ≤ w) :
    (word w l).toNat = value l := by
  induction l using List.reverseRecOn with
  | nil => exact BitVec.toNat_ofNat 0 w
  | append_singleton l byte ih =>
    rw [List.length_append, List.length_singleton] at fits
    have small := byte.toNat_lt
    have bound : value l * 2 ^ 8 < 2 ^ w := by
      have below := value_lt l
      have room : 2 ^ (8 * l.length) * 2 ^ 8 ≤ 2 ^ w := by
        rw [← Nat.pow_add]
        exact Nat.pow_le_pow_right (by decide) (by omega)
      omega
    have wide : 2 ^ 8 ≤ 2 ^ w := Nat.pow_le_pow_right (by decide) (by omega)
    have step : word w (l ++ [byte]) = (word w l <<< 8) ||| byte.toBitVec.setWidth w := by
      rw [word, List.foldl_append]
      rfl
    rw [step, BitVec.toNat_or, BitVec.toNat_shiftLeft, BitVec.toNat_setWidth, ih (by omega),
      value_snoc, Nat.shiftLeft_eq, Nat.mod_eq_of_lt bound, UInt8.toNat_toBitVec,
      Nat.mod_eq_of_lt (by omega), ← Nat.shiftLeft_eq,
      Nat.shiftLeft_add_eq_or_of_lt small]

end BigEndian
