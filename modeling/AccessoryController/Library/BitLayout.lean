import Mathlib.Algebra.Group.Nat.Defs
import Mathlib.Data.List.Nodup

/-!
# Fields of bits in a frame of bytes

A field of a frame is a list of bits, the lowest first, each given by its byte and its place in the
byte. Fields that tile a frame have every bit of it in exactly one of them.

## Main definitions

* `BitLayout.bit`: a bit of a frame
* `BitLayout.inByte`, `BitLayout.word`: fields inside a byte, and of two bytes
* `BitLayout.read`: the number in a field
* `BitLayout.Tiles`: the fields tile the frame

## Main results

* `decode_bitsOf`: reading the bits of a number
* `bit_setIfInBounds`: the bits after a byte was written
* `tiles_of_mark`: fields that mark every bit once tile the frame
-/

namespace BitLayout

/-- A byte of a frame, and a place in the byte. -/
abbrev Position := ℕ × ℕ

variable {n : ℕ}

def bit (bytes : Vector UInt8 n) (p : Position) : Bool :=
  (bytes[p.1]?.getD 0).toBitVec.getLsbD p.2

/-- The field of some width inside a byte. -/
def inByte (offset low width : ℕ) : List Position :=
  (List.range width).map fun i => (offset, low + i)

/-- The field of a little-endian word. -/
def word (offset : ℕ) : List Position := inByte offset 0 8 ++ inByte (offset + 1) 0 8

/-- The number that bits stand for, the lowest first. -/
def decode : List Bool → ℕ
  | [] => 0
  | b :: bits => b.toNat + 2 * decode bits

/-- The number in a field of a frame. -/
def read (bytes : Vector UInt8 n) (field : List Position) : ℕ := decode (field.map (bit bytes))

/-- The low bits of a number. -/
def bitsOf (width v : ℕ) : List Bool := (List.range width).map v.testBit

/-- **The fields tile the frame**: every bit of the frame is in exactly one field. -/
structure Tiles (size : ℕ) (fields : List (List Position)) : Prop where
  apart : fields.flatten.Nodup
  inside : ∀ p ∈ fields.flatten, p.1 < size ∧ p.2 < 8
  whole : ∀ byte < size, ∀ place < 8, (byte, place) ∈ fields.flatten

instance (size : ℕ) (fields : List (List Position)) : Decidable (Tiles size fields) :=
  decidable_of_iff (fields.flatten.Nodup ∧ (∀ p ∈ fields.flatten, p.1 < size ∧ p.2 < 8) ∧
      ∀ byte < size, ∀ place < 8, (byte, place) ∈ fields.flatten)
    ⟨fun h => ⟨h.1, h.2.1, h.2.2⟩, fun h => ⟨h.apart, h.inside, h.whole⟩⟩

/-! ### Numbers and bits -/

theorem bitsOf_succ (width v : ℕ) :
    bitsOf (width + 1) v = v.testBit 0 :: bitsOf width (v / 2) := by
  rw [bitsOf, List.range_succ_eq_map, List.map_cons, List.map_map]
  congr 1
  exact List.map_congr_left fun i _ => Nat.testBit_succ v i

/-- **Reading the bits of a number** gives what fits the field. -/
theorem decode_bitsOf (width v : ℕ) : decode (bitsOf width v) = v % 2 ^ width := by
  induction width generalizing v with
  | zero => exact (Nat.mod_one v).symm
  | succ width ih =>
    have low : (v.testBit 0).toNat = v % 2 := by
      rw [Nat.testBit_zero]
      rcases Nat.mod_two_eq_zero_or_one v with even | odd
      · simp [even]
      · simp [odd]
    rw [bitsOf_succ, decode, ih, low, Nat.pow_succ, Nat.mul_comm (2 ^ width), Nat.mod_mul]

/-- A field of clear bits is zero. -/
theorem decode_clear (field : List Position) : decode (field.map fun _ => false) = 0 := by
  induction field with
  | nil => rfl
  | cons p field ih =>
    rw [List.map_cons, decode, ih]
    rfl

/-- A number that is set in clear bits. -/
theorem zipWith_or_clear {field : List Position} {width : ℕ} (sized : field.length = width)
    (v : ℕ) : List.zipWith or (field.map fun _ => false) (bitsOf width v) = bitsOf width v := by
  subst sized
  rw [List.map_const', ← List.length_range (n := field.length), ← List.map_const', bitsOf,
    List.zipWith_map, List.length_range, List.zipWith_self]
  exact List.map_congr_left fun i _ => Bool.false_or _

/-- The bits of a field inside a byte. -/
theorem map_inByte {f : Position → Bool} {offset low width v : ℕ}
    (each : ∀ i < width, f (offset, low + i) = v.testBit i) :
    (inByte offset low width).map f = bitsOf width v := by
  rw [inByte, List.map_map]
  exact List.map_congr_left fun i hi => each i (List.mem_range.mp hi)

/-- The bits of a word. -/
theorem map_word {f : Position → Bool} {offset v : ℕ} (low : ∀ i < 8, f (offset, i) = v.testBit i)
    (high : ∀ i < 8, f (offset + 1, i) = v.testBit (8 + i)) :
    (word offset).map f = bitsOf 16 v := by
  have split : bitsOf 16 v = bitsOf 8 v ++ (List.range 8).map fun i => v.testBit (8 + i) := by
    rw [bitsOf, show List.range 16 = List.range 8 ++ (List.range 8).map (8 + ·) by decide,
      List.map_append, List.map_map]
    rfl
  rw [word, List.map_append, split, map_inByte (by simpa using low), inByte, List.map_map]
  congr 1
  refine List.map_congr_left fun i hi => ?_
  rw [Function.comp_apply, Nat.zero_add]
  exact high i (List.mem_range.mp hi)

/-! ### Writing a byte -/

/-- **The bits after a byte was written.** -/
theorem bit_setIfInBounds (bytes : Vector UInt8 n) {offset : ℕ} (inside : offset < n) (v : UInt8)
    (p : Position) : bit (bytes.setIfInBounds offset v) p =
      if p.1 = offset then v.toBitVec.getLsbD p.2 else bit bytes p := by
  unfold bit
  rw [Vector.getElem?_setIfInBounds]
  by_cases here : p.1 = offset
  · rw [if_pos here, if_pos here.symm, if_pos (by omega)]
    rfl
  · rw [if_neg here, if_neg (Ne.symm here)]

theorem length_inByte (offset low width : ℕ) : (inByte offset low width).length = width := by
  rw [inByte, List.length_map, List.length_range]

theorem mem_inByte {offset low width : ℕ} {p : Position} :
    p ∈ inByte offset low width ↔ p.1 = offset ∧ low ≤ p.2 ∧ p.2 < low + width := by
  obtain ⟨byte, place⟩ := p
  simp only [inByte, List.mem_map, List.mem_range, Prod.mk.injEq]
  constructor
  · rintro ⟨i, hi, rfl, rfl⟩
    omega
  · rintro ⟨rfl, above, below⟩
    exact ⟨place - low, by omega, rfl, by omega⟩

theorem mem_word {offset : ℕ} {p : Position} :
    p ∈ word offset ↔ (p.1 = offset ∨ p.1 = offset + 1) ∧ p.2 < 8 := by
  rw [word, List.mem_append, mem_inByte, mem_inByte]
  omega

/-! ### Marking the bits of a layout -/

/-- The number of a bit in a frame. -/
def number (p : Position) : ℕ := 8 * p.1 + p.2

theorem number_injective {p q : Position} (low : p.2 < 8) (low' : q.2 < 8)
    (same : number p = number q) : p = q := by
  unfold number at same
  exact Prod.ext (by omega) (by omega)

/-- Marks bits in a mask, and fails at a bit that is marked already. -/
def mark : List Position → ℕ → Option ℕ
  | [], mask => some mask
  | p :: rest, mask =>
    if p.2 < 8 ∧ mask.testBit (number p) = false then mark rest (mask ||| 2 ^ number p) else none

/-- **Marked bits** are different bits of bytes, and were not marked before. -/
theorem mark_eq_some {positions : List Position} {mask marked : ℕ}
    (marks : mark positions mask = some marked) : positions.Nodup ∧
      (∀ p ∈ positions, p.2 < 8 ∧ mask.testBit (number p) = false) ∧
      ∀ i, marked.testBit i = true ↔ mask.testBit i = true ∨ ∃ p ∈ positions, number p = i := by
  induction positions generalizing mask with
  | nil =>
    obtain rfl := Option.some.inj marks
    exact ⟨List.nodup_nil, by simp, by simp⟩
  | cons p rest ih =>
    rw [mark] at marks
    split at marks
    swap
    · cases marks
    next free =>
    obtain ⟨nodup, fresh, all⟩ := ih marks
    have clear : ∀ q ∈ rest, q.2 < 8 ∧ mask.testBit (number q) = false ∧ number q ≠ number p := by
      intro q mem
      obtain ⟨low, unset⟩ := fresh q mem
      rw [Nat.testBit_or, Bool.or_eq_false_iff, Nat.testBit_two_pow, decide_eq_false_iff_not] at unset
      exact ⟨low, unset.1, Ne.symm unset.2⟩
    refine ⟨List.nodup_cons.mpr ⟨fun mem => (clear p mem).2.2 rfl, nodup⟩, ?_, fun i => ?_⟩
    · exact List.forall_mem_cons.mpr ⟨free, fun q mem => ⟨(clear q mem).1, (clear q mem).2.1⟩⟩
    · rw [all, Nat.testBit_or, Bool.or_eq_true, Nat.testBit_two_pow, decide_eq_true_eq,
        List.exists_mem_cons_iff, or_assoc]

theorem nodup_of_mark {positions : List Position} {marked : ℕ}
    (marks : mark positions 0 = some marked) : positions.Nodup := (mark_eq_some marks).1

/-- **Fields that mark every bit once** tile the frame. -/
theorem tiles_of_mark {size : ℕ} {fields : List (List Position)}
    (marks : mark fields.flatten 0 = some (2 ^ (8 * size) - 1)) : Tiles size fields := by
  obtain ⟨nodup, fresh, all⟩ := mark_eq_some marks
  have marked : ∀ i, (∃ p ∈ fields.flatten, number p = i) ↔ i < 8 * size := by
    intro i
    have bits := all i
    rw [Nat.zero_testBit, Nat.testBit_two_pow_sub_one, decide_eq_true_eq] at bits
    simpa using bits.symm
  refine ⟨nodup, fun p mem => ?_, fun byte hbyte place hplace => ?_⟩
  · have inside := (marked (number p)).mp ⟨p, mem, rfl⟩
    unfold number at inside
    exact ⟨by omega, (fresh p mem).1⟩
  · obtain ⟨p, mem, same⟩ := (marked (number (byte, place))).mpr (by unfold number; omega)
    rwa [number_injective (fresh p mem).1 hplace same] at mem

end BitLayout
