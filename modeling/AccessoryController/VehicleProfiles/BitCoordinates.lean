import Mathlib.Data.List.Range

/-!
# Occupied bits of a field

The bit positions of a field in a payload, in source significance order. Intel fields run upward
from their lowest bit; Motorola fields run downward within a byte from their highest bit, and go on
at the top of the next byte.

## Main definitions

* `occupiedBits`: the positions of a field
* `occupiedBitsOf`: the positions with the checks of the arguments

## Main results

* `nodup_occupiedBits`: a field occupies no position twice
* `eq_of_occupiedBits`: a set of positions and a byte order fix the start and the length
-/

namespace AccessoryController.VehicleProfiles

inductive ByteOrder
  | intel | motorola
  deriving DecidableEq, Repr

/-- The next position of a Motorola field. -/
def nextMotorola (bit : ℕ) : ℕ := if bit % 8 ≠ 0 then bit - 1 else bit + 15

def motorolaBits (bit : ℕ) : ℕ → List ℕ
  | 0 => []
  | length + 1 => bit :: motorolaBits (nextMotorola bit) length

def occupiedBits (start length : ℕ) : ByteOrder → List ℕ
  | .intel => List.range' start length
  | .motorola => motorolaBits start length

/-- The positions of a field, for any arguments. -/
def occupiedBitsOf (start length : ℤ) (byteOrder : String) : Except String (List ℕ) :=
  if start < 0 ∨ ¬ (1 ≤ length ∧ length ≤ 64) then
    .error "start must be nonnegative and length must be in 1..64"
  else if byteOrder = "intel" then .ok (occupiedBits start.toNat length.toNat .intel)
  else if byteOrder ≠ "motorola" then .error "unknown byte order"
  else .ok (occupiedBits start.toNat length.toNat .motorola)

theorem length_occupiedBits (start length : ℕ) (order : ByteOrder) :
    (occupiedBits start length order).length = length := by
  cases order with
  | intel => exact List.length_range'
  | motorola =>
    rw [occupiedBits]
    induction length generalizing start with
    | zero => rfl
    | succ length ih => rw [motorolaBits, List.length_cons, ih]

/-- The rank of a position when each byte is read from its top. -/
def motorolaRank (bit : ℕ) : ℕ := 8 * (bit / 8) + (7 - bit % 8)

theorem motorolaRank_motorolaRank (bit : ℕ) : motorolaRank (motorolaRank bit) = bit := by
  unfold motorolaRank
  omega

theorem motorolaRank_nextMotorola (bit : ℕ) :
    motorolaRank (nextMotorola bit) = motorolaRank bit + 1 := by
  unfold motorolaRank nextMotorola
  split <;> omega

/-- A Motorola field is a run of ranks. -/
theorem mem_motorolaBits {start length bit : ℕ} :
    bit ∈ motorolaBits start length ↔
      motorolaRank start ≤ motorolaRank bit ∧ motorolaRank bit < motorolaRank start + length := by
  induction length generalizing start with
  | zero => simp [motorolaBits]
  | succ length ih =>
    rw [motorolaBits, List.mem_cons, ih, motorolaRank_nextMotorola]
    constructor
    · rintro (rfl | h)
      · omega
      · omega
    · rintro ⟨hlow, hhigh⟩
      rcases Nat.eq_or_lt_of_le hlow with heq | hlt
      · left
        rw [← motorolaRank_motorolaRank bit, ← heq, motorolaRank_motorolaRank]
      · right
        omega

/-- **A field occupies no position twice**: the ranks of a Motorola field ascend. -/
theorem nodup_occupiedBits (start length : ℕ) (order : ByteOrder) :
    (occupiedBits start length order).Nodup := by
  cases order with
  | intel => exact List.nodup_range'
  | motorola =>
    rw [occupiedBits]
    induction length generalizing start with
    | zero => exact List.nodup_nil
    | succ length ih =>
      refine List.nodup_cons.mpr ⟨fun mem => ?_, ih _⟩
      have := (mem_motorolaBits.mp mem).1
      rw [motorolaRank_nextMotorola] at this
      omega

theorem mem_occupiedBits_intel {start length bit : ℕ} :
    bit ∈ occupiedBits start length .intel ↔ start ≤ bit ∧ bit < start + length := by
  simp [occupiedBits, List.mem_range'_1]

/-- A nonempty interval fixes its ends. -/
theorem interval_ends {a m b n : ℕ} (hm : 0 < m)
    (h : ∀ x, (a ≤ x ∧ x < a + m) ↔ (b ≤ x ∧ x < b + n)) : a = b ∧ m = n := by
  have hlow := (h a).mp ⟨Nat.le_refl a, by omega⟩
  have hlast := (h (a + m - 1)).mp ⟨by omega, by omega⟩
  have hlow' := (h b).mpr ⟨Nat.le_refl b, by omega⟩
  have hlast' := (h (b + n - 1)).mpr ⟨by omega, by omega⟩
  omega

/-- **A set of positions** and a byte order fix the start and the length of a field. -/
theorem eq_of_occupiedBits {start length start' length' : ℕ} {order : ByteOrder}
    (hlength : 0 < length)
    (h : ∀ bit, bit ∈ occupiedBits start length order ↔ bit ∈ occupiedBits start' length' order) :
    start = start' ∧ length = length' := by
  cases order with
  | intel => exact interval_ends hlength fun x => by simpa [mem_occupiedBits_intel] using h x
  | motorola =>
    have hranks : motorolaRank start = motorolaRank start' ∧ length = length' := by
      refine interval_ends hlength fun x => ?_
      have := h (motorolaRank x)
      rwa [occupiedBits, occupiedBits, mem_motorolaBits, mem_motorolaBits,
        motorolaRank_motorolaRank] at this
    refine ⟨?_, hranks.2⟩
    rw [← motorolaRank_motorolaRank start, hranks.1, motorolaRank_motorolaRank]

theorem start_mem_occupiedBits {start length : ℕ} {order : ByteOrder} (hlength : 0 < length) :
    start ∈ occupiedBits start length order := by
  cases order with
  | intel => exact mem_occupiedBits_intel.mpr ⟨Nat.le_refl _, by omega⟩
  | motorola => exact mem_motorolaBits.mpr ⟨Nat.le_refl _, by omega⟩

end AccessoryController.VehicleProfiles
