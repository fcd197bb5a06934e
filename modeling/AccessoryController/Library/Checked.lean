import Mathlib.Algebra.Group.Int.Defs
import Mathlib.Algebra.Group.Nat.Defs

/-!
# Checked machine arithmetic

The operations of a program on unsigned words and arrays, with the conditions under which they are
exact. A computation whose operations are all checked returns only when no intermediate result
left its type, no shift was too wide and no index lay past its array.

## Main definitions

* `Checked α`: a computation of an `α` that may fault
* `Checked.add`, `Checked.sub`, `Checked.mul`, `Checked.quotient`, `Checked.remainder`: words
* `Checked.narrow`: a conversion to a narrower word
* `Checked.signed`: a result that must be a signed word
* `Checked.shiftLeft`: the shift of a word
* `Checked.get`, `Checked.set`, `Checked.read`: arrays and buffers

## Main results

* `Checked.add_eq` and so on: an operation within its range returns the exact result
-/

/-- What can go wrong in one operation. -/
inductive Checked.Fault
  | overflow | divisionByZero | shiftRange | indexRange
  deriving DecidableEq, Repr

/-- A computation that returns a value unless an operation in it faults. -/
abbrev Checked (α : Type) := Except Checked.Fault α

namespace Checked

variable {α β : Type} {w n a b i : ℕ}

/-- The sum of two words of width `w`. -/
def add (w a b : ℕ) : Checked ℕ := if a + b < 2 ^ w then .ok (a + b) else .error .overflow

/-- The difference of two unsigned words. -/
def sub (a b : ℕ) : Checked ℕ := if b ≤ a then .ok (a - b) else .error .overflow

/-- The product of two words of width `w`. -/
def mul (w a b : ℕ) : Checked ℕ := if a * b < 2 ^ w then .ok (a * b) else .error .overflow

def quotient (a b : ℕ) : Checked ℕ := if b = 0 then .error .divisionByZero else .ok (a / b)

def remainder (a b : ℕ) : Checked ℕ := if b = 0 then .error .divisionByZero else .ok (a % b)

/-- A conversion to a narrower word. -/
def narrow (w n : ℕ) : Checked ℕ := if n < 2 ^ w then .ok n else .error .overflow

/-- A result that must be a signed word of width `w`. -/
def signed (w : ℕ) (n : ℤ) : Checked ℤ :=
  if -2 ^ (w - 1) ≤ n ∧ n < 2 ^ (w - 1) then .ok n else .error .overflow

/-- A shift, which drops the bits that leave the word. -/
def shiftLeft (a : BitVec w) (n : ℕ) : Checked (BitVec w) :=
  if n < w then .ok (a <<< n) else .error .shiftRange

/-- The element at an index. -/
def get (values : Vector α n) (i : ℕ) : Checked α :=
  if h : i < n then .ok (values.get ⟨i, h⟩) else .error .indexRange

/-- The element at an index of a buffer. -/
def read (values : List α) (i : ℕ) : Checked α :=
  match values[i]? with
  | some value => .ok value
  | none => .error .indexRange

/-- The array with another element at an index. -/
def set (values : Vector α n) (i : ℕ) (value : α) : Checked (Vector α n) :=
  if i < n then .ok (values.setIfInBounds i value) else .error .indexRange

theorem add_eq (h : a + b < 2 ^ w) : add w a b = .ok (a + b) := if_pos h

theorem sub_eq (h : b ≤ a) : sub a b = .ok (a - b) := if_pos h

theorem mul_eq (h : a * b < 2 ^ w) : mul w a b = .ok (a * b) := if_pos h

theorem quotient_eq (h : b ≠ 0) : quotient a b = .ok (a / b) := if_neg h

theorem remainder_eq (h : b ≠ 0) : remainder a b = .ok (a % b) := if_neg h

theorem narrow_eq (h : n < 2 ^ w) : narrow w n = .ok n := if_pos h

theorem signed_eq {n : ℤ} (h : -2 ^ (w - 1) ≤ n ∧ n < 2 ^ (w - 1)) : signed w n = .ok n := if_pos h

theorem shiftLeft_eq {value : BitVec w} (h : n < w) : shiftLeft value n = .ok (value <<< n) :=
  if_pos h

theorem get_eq {values : Vector α n} (h : i < n) : get values i = .ok (values.get ⟨i, h⟩) :=
  dif_pos h

theorem read_eq {values : List α} {fallback : α} (h : i < values.length) :
    read values i = .ok (values.getD i fallback) := by
  rw [read, List.getElem?_eq_getElem h, List.getD_eq_getElem?_getD, List.getElem?_eq_getElem h]
  rfl

theorem set_eq {values : Vector α n} {value : α} (h : i < n) :
    set values i value = .ok (values.setIfInBounds i value) := if_pos h

/-- What comes after a computation that returned. -/
theorem ok_bind (value : α) (next : α → Checked β) :
    ((.ok value : Checked α) >>= next) = next value := rfl

end Checked
