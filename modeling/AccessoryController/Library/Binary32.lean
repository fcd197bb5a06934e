import Mathlib.Algebra.Group.Nat.Defs

/-!
# Binary32 numbers

Single-precision numbers by their bit patterns. Finite numbers are integer multiples of the
smallest positive number; the same formula gives the infinities a magnitude above every finite
one, so that comparisons are comparisons of integers. No comparison with a NaN holds.

## Main definitions

* `Binary32.units x`: the value of `x` as a multiple of `2 ^ -149`
* `Binary32.isFinite`, `Binary32.isNaN`: the classes of a pattern
* `Binary32.eq`, `Binary32.lt`, `Binary32.le`: the comparisons
-/

/-- A single-precision number by its bit pattern. -/
structure Binary32 where
  bits : UInt32
  deriving DecidableEq, Repr, Inhabited

namespace Binary32

def exponent (x : Binary32) : ℕ := x.bits.toNat / 2 ^ 23 % 2 ^ 8

def fraction (x : Binary32) : ℕ := x.bits.toNat % 2 ^ 23

def negative (x : Binary32) : Bool := decide (2 ^ 31 ≤ x.bits.toNat)

def isFinite (x : Binary32) : Bool := decide (x.exponent < 255)

def isNaN (x : Binary32) : Bool := x.exponent == 255 && x.fraction != 0

/-- The magnitude as a multiple of the smallest positive number. -/
def magnitude (x : Binary32) : ℕ :=
  if x.exponent = 0 then x.fraction else (2 ^ 23 + x.fraction) * 2 ^ (x.exponent - 1)

/-- The value as a multiple of the smallest positive number. -/
def units (x : Binary32) : ℤ := if x.negative then -x.magnitude else x.magnitude

/-- Equality of values: zeros are equal, and a NaN equals nothing. -/
def eq (x y : Binary32) : Bool := !x.isNaN && !y.isNaN && decide (x.units = y.units)

def lt (x y : Binary32) : Bool := !x.isNaN && !y.isNaN && decide (x.units < y.units)

def le (x y : Binary32) : Bool := !x.isNaN && !y.isNaN && decide (x.units ≤ y.units)

theorem isNaN_of_isFinite {x : Binary32} (h : x.isFinite = true) : x.isNaN = false := by
  have hx : x.exponent < 255 := by simpa [isFinite] using h
  have hne : (x.exponent == 255) = false := by
    rw [beq_eq_false_iff_ne]
    omega
  rw [isNaN, hne, Bool.false_and]

end Binary32
