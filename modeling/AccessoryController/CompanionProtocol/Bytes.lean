import AccessoryController.Library.LittleEndian

/-!
# Bounded byte strings

A value of an attribute has a fixed capacity. Every append is refused, with nothing written, when
it does not fit.

## Main definitions

* `BoundedBytes capacity`: the byte strings of at most `capacity` bytes
* `BoundedBytes.push`, `pushU16`, `pushU32`, `append`: the appends
-/

namespace AccessoryController.CompanionProtocol

open LittleEndian

/-- A byte string of at most `capacity` bytes. -/
structure BoundedBytes (capacity : ℕ) where
  bytes : List UInt8 := []
  bounded : bytes.length ≤ capacity := by decide

namespace BoundedBytes

variable {capacity : ℕ}

def empty : BoundedBytes capacity := ⟨[], Nat.zero_le _⟩

/-- Appends the bytes that fit. -/
def append (value : BoundedBytes capacity) (bytes : List UInt8) :
    Option (BoundedBytes capacity) :=
  if h : bytes.length ≤ capacity - value.bytes.length then
    some ⟨value.bytes ++ bytes, by
      have := value.bounded
      rw [List.length_append]
      omega⟩
  else none

def push (value : BoundedBytes capacity) (byte : UInt8) : Option (BoundedBytes capacity) :=
  value.append [byte]

def pushU16 (value : BoundedBytes capacity) (n : ℕ) : Option (BoundedBytes capacity) :=
  value.append (u16 n)

def pushU32 (value : BoundedBytes capacity) (n : ℕ) : Option (BoundedBytes capacity) :=
  value.append (u32 n)

/-- An append that fits. -/
theorem append_eq_some {value : BoundedBytes capacity} {bytes : List UInt8}
    (fits : value.bytes.length + bytes.length ≤ capacity) :
    ∃ value', value.append bytes = some value' ∧ value'.bytes = value.bytes ++ bytes := by
  have room : bytes.length ≤ capacity - value.bytes.length := by omega
  exact ⟨_, dif_pos room, rfl⟩

end BoundedBytes

end AccessoryController.CompanionProtocol
