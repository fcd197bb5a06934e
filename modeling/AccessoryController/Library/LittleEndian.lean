import Mathlib.Algebra.Group.Nat.Defs
import Mathlib.Data.List.Basic

/-!
# Little-endian words in byte strings

Sixteen-bit words are read from and written to byte strings with the least significant byte
first. A read past the end of the string sees zero bytes.

## Main definitions

* `LittleEndian.u16 n`: the two bytes of `n`, taken modulo `2 ^ 16`
* `LittleEndian.readU16 bytes offset`, `LittleEndian.readU32 bytes offset`: the words at `offset`

## Main results

* `LittleEndian.readU16_u16`: a word written is the word read
-/

namespace LittleEndian

/-- The two bytes of a sixteen-bit word. -/
def u16 (n : ℕ) : List UInt8 := [UInt8.ofNat n, UInt8.ofNat (n / 2 ^ 8)]

/-- The four bytes of a thirty-two-bit word. -/
def u32 (n : ℕ) : List UInt8 := u16 n ++ u16 (n / 2 ^ 16)

/-- The sixteen-bit word at `offset`. -/
def readU16 (bytes : List UInt8) (offset : ℕ) : ℕ :=
  (bytes.getD offset 0).toNat + 2 ^ 8 * (bytes.getD (offset + 1) 0).toNat

/-- The thirty-two-bit word at `offset`. -/
def readU32 (bytes : List UInt8) (offset : ℕ) : ℕ :=
  readU16 bytes offset + 2 ^ 16 * readU16 bytes (offset + 2)

@[simp] theorem length_u16 (n : ℕ) : (u16 n).length = 2 := rfl

@[simp] theorem length_u32 (n : ℕ) : (u32 n).length = 4 := rfl

/-- A word written is the word read. -/
theorem readU16_u16 (n : ℕ) (rest : List UInt8) :
    readU16 (u16 n ++ rest) 0 = n % 2 ^ 16 := by
  simp only [readU16, u16, List.cons_append, List.nil_append, List.getD_cons_zero,
    List.getD_cons_succ, UInt8.toNat_ofNat']
  omega

end LittleEndian
