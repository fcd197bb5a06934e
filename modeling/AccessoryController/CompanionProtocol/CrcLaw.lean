import Mathlib.Algebra.Field.ZMod
import AccessoryController.CompanionProtocol.Crc32
import AccessoryController.Library.CyclicCode

/-!
# The CRC is a remainder

The register of the CRC is a polynomial over the field of two elements, with its least significant
bit at the highest power: the bytes go through it with their least significant bit first. One bit of
the loop moves the register up by one power and takes the remainder by the generator, so that the
whole loop divides the message. The burst detection of cyclic codes then holds of the CRC.

## Main definitions

* `generator`: the generator of CRC-32/ISO-HDLC
* `messageBits`: the bits of a message in the order in which they go through the register
* `isoHdlc`: the CRC-32/ISO-HDLC of a message, by polynomial division

## Main results

* `register_crc32Bit`: one bit of the loop is one division step
* `crc32_exact`: the loop computes the remainder, and a burst of up to 32 bits changes it
-/

namespace AccessoryController.CompanionProtocol

open Polynomial CyclicCode

/-! ### The generator -/

/-- The powers of the generator. -/
def generatorPowers : List ℕ := [32, 26, 23, 22, 16, 12, 11, 10, 8, 7, 5, 4, 2, 1, 0]

/-- x^32 + x^26 + x^23 + x^22 + x^16 + x^12 + x^11 + x^10 + x^8 + x^7 + x^5 + x^4 + x^2 + x + 1 -/
noncomputable def generator : (ZMod 2)[X] := (generatorPowers.map (X ^ ·)).sum

theorem coeff_generator (d : ℕ) : generator.coeff d = (generatorPowers.count d : ZMod 2) := by
  have powers (l : List ℕ) : ((l.map (X ^ ·)).sum : (ZMod 2)[X]).coeff d = (l.count d : ZMod 2) := by
    induction l with
    | nil => simp
    | cons n l ih =>
      rw [List.map_cons, List.sum_cons, coeff_add, coeff_X_pow, ih, List.count_cons]
      by_cases same : d = n
      · subst same
        simp [add_comm]
      · simp [same, Ne.symm same]
  exact powers generatorPowers

theorem coeff_generator_high {d : ℕ} (high : 32 < d) : generator.coeff d = 0 := by
  have bounded : ∀ n ∈ generatorPowers, n ≤ 32 := by decide
  rw [coeff_generator, List.count_eq_zero_of_not_mem fun mem => ?_, Nat.cast_zero]
  exact Nat.not_le_of_lt high (bounded d mem)

theorem degree_generator : generator.natDegree = 32 ∧ generator.Monic := by
  have top : generator.coeff 32 = 1 := by
    rw [coeff_generator]
    decide
  have degree : generator.natDegree = 32 := by
    refine le_antisymm (natDegree_le_iff_coeff_eq_zero.mpr fun d high => coeff_generator_high high)
      (le_natDegree_of_ne_zero ?_)
    rw [top]
    exact one_ne_zero
  refine ⟨degree, ?_⟩
  rw [Monic, leadingCoeff, degree, top]

theorem constant_generator : generator.coeff 0 ≠ 0 := by
  rw [coeff_generator]
  decide

/-! ### Registers -/

/-- A bit as an element of the field. -/
def symbol (bit : Bool) : ZMod 2 := if bit then 1 else 0

/-- The polynomial of a word, with its least significant bit at the highest power. -/
noncomputable def register (crc : UInt32) : (ZMod 2)[X] :=
  ofSymbols ((List.range 32).map fun i => symbol (crc.toBitVec.getLsbD i))

/-- The bits of a byte, the least significant one first. -/
def byteBits (byte : UInt8) : List (ZMod 2) :=
  (List.range 8).map fun i => symbol (byte.toBitVec.getLsbD i)

/-- The bits of a message, in the order in which they go through the register. -/
def messageBits (bytes : List UInt8) : List (ZMod 2) := bytes.flatMap byteBits

/-- The word whose register is a polynomial. -/
def wordOf (bits : ℕ → ZMod 2) : UInt32 :=
  UInt32.ofBitVec ((BitVec.ofBoolListLE
    ((List.range 32).map fun i => decide (bits (31 - i) = 1))).setWidth 32)

/-- **The CRC-32/ISO-HDLC of a message**: the remainder of the message with the initial value all
ones, reflected, and complemented by the final exclusive or. -/
noncomputable def isoHdlc (bytes : List UInt8) : UInt32 :=
  wordOf (check generator (register 0xFFFFFFFF) (messageBits bytes)).coeff ^^^ 0xFFFFFFFF

/-- The bit of a message at a position in this order. -/
def bitAt (bytes : List UInt8) (i : ℕ) : Bool := (bytes.getD (i / 8) 0).toBitVec.getLsbD (i % 8)

theorem getD_reverse_range (n : ℕ) (bits : ℕ → ZMod 2) (d : ℕ) :
    ((List.range n).map bits).reverse.getD d 0 = if d < n then bits (n - 1 - d) else 0 := by
  split
  · rename_i inside
    rw [List.getD_eq_getElem?_getD, List.getElem?_reverse (by simpa using inside)]
    simp only [List.length_map, List.length_range, List.getElem?_map]
    rw [List.getElem?_range (by omega)]
    rfl
  · rename_i outside
    exact List.getD_eq_default _ _ (by simpa using outside)

variable (crc : UInt32)

theorem coeff_register (d : ℕ) :
    (register crc).coeff d = if d < 32 then symbol (crc.toBitVec.getLsbD (31 - d)) else 0 := by
  rw [register, coeff_ofSymbols, getD_reverse_range]

theorem degree_register : (register crc).degree < generator.degree := by
  obtain ⟨degree, monic⟩ := degree_generator
  rw [degree_eq_natDegree monic.ne_zero, degree, degree_lt_iff_coeff_zero]
  intro d high
  rw [coeff_register, if_neg (Nat.not_lt_of_le high)]

theorem symbol_xor (a b : Bool) : symbol (a ^^ b) = symbol a + symbol b := by
  cases a <;> cases b <;> rfl

/-- Registers add as polynomials. -/
theorem register_xor (other : UInt32) :
    register (crc ^^^ other) = register crc + register other := by
  ext d
  rw [coeff_add, coeff_register, coeff_register, coeff_register]
  split
  · rw [UInt32.toBitVec_xor, BitVec.getLsbD_xor, symbol_xor]
  · rw [add_zero]

/-! ### The loop -/

/-- One bit of the loop, bit by bit: a shift, and the polynomial when a one was shifted out. -/
theorem getLsbD_crc32Bit (i : ℕ) :
    (crc32Bit crc).toBitVec.getLsbD i = (crc.toBitVec.getLsbD (i + 1) ^^
      (kReflectedPolynomial.toBitVec.getLsbD i && crc.toBitVec.getLsbD 0)) := by
  have low : (crc &&& 1).toBitVec = BitVec.setWidth 32 (BitVec.ofBool (crc.toBitVec.getLsbD 0)) :=
    BitVec.and_one_eq_setWidth_ofBool_getLsbD
  have taken : kReflectedPolynomial &&& (0 - (crc &&& 1)) =
      if crc.toBitVec.getLsbD 0 then kReflectedPolynomial else 0 := by
    rcases bit : crc.toBitVec.getLsbD 0 with _ | _ <;> rw [bit] at low
    · have zero : crc &&& 1 = 0 := UInt32.toBitVec_inj.mp low
      rw [zero]
      rfl
    · have one : crc &&& 1 = 1 := UInt32.toBitVec_inj.mp low
      rw [one]
      rfl
  have shifted : (crc >>> 1).toBitVec.getLsbD i = crc.toBitVec.getLsbD (i + 1) := by
    rw [Nat.add_comm]
    exact BitVec.getLsbD_ushiftRight ..
  rw [crc32Bit, taken, UInt32.toBitVec_xor, BitVec.getLsbD_xor, shifted]
  rcases crc.toBitVec.getLsbD 0 with _ | _
  · simp
  · simp

/-- The polynomial of the loop is the generator below its highest power, reflected. -/
theorem symbol_reflected {d : ℕ} (below : d < 32) :
    symbol (kReflectedPolynomial.toBitVec.getLsbD (31 - d)) = generator.coeff d := by
  have powers : ∀ d < 32, symbol (kReflectedPolynomial.toBitVec.getLsbD (31 - d)) =
      (generatorPowers.count d : ZMod 2) := by decide
  rw [coeff_generator, powers d below]

theorem symbol_and (a b : Bool) : symbol (a && b) = symbol a * symbol b := by
  cases a <;> cases b <;> rfl

/-- **One bit of the loop is one division step.** -/
theorem register_crc32Bit : register (crc32Bit crc) = (X * register crc) %ₘ generator := by
  obtain ⟨degree, monic⟩ := degree_generator
  have small := (modByMonic_eq_self_iff monic).mpr (degree_register (crc32Bit crc))
  rw [← small]
  apply modByMonic_eq_of_dvd_sub monic
  refine ⟨C (symbol (crc.toBitVec.getLsbD 0)), ?_⟩
  ext d
  rw [coeff_sub, coeff_mul_C, coeff_register]
  rcases d with _ | d
  · -- the lowest power is what was shifted out
    rw [if_pos (by decide), getLsbD_crc32Bit, BitVec.getLsbD_of_ge _ _ (by decide), Bool.false_xor,
      symbol_and, symbol_reflected (by decide), coeff_X_mul_zero, sub_zero]
  rw [coeff_X_mul, coeff_register]
  rcases Nat.lt_trichotomy (d + 1) 32 with below | top | above
  · rw [if_pos below, if_pos (by omega), getLsbD_crc32Bit, symbol_xor, symbol_and,
      symbol_reflected below, show 31 - (d + 1) + 1 = 31 - d by omega, add_sub_cancel_left]
  · have highest : generator.coeff (d + 1) = 1 := by
      rw [top, ← degree]
      exact monic
    rw [if_neg (by omega), if_pos (by omega), highest, one_mul, show 31 - d = 0 by omega, zero_sub]
    exact ZMod.neg_eq_self_mod_two _
  · rw [if_neg (by omega), if_neg (by omega), coeff_generator_high above, zero_mul, sub_zero]

/-- Some bits of the loop. -/
theorem register_bits (n : ℕ) :
    register ((List.range n).foldl (fun crc _ => crc32Bit crc) crc) =
      (X ^ n * register crc) %ₘ generator := by
  obtain ⟨-, monic⟩ := degree_generator
  induction n with
  | zero => rw [pow_zero, one_mul, (modByMonic_eq_self_iff monic).mpr (degree_register crc)]; rfl
  | succ n ih =>
    rw [List.range_succ, List.foldl_append, List.foldl_cons, List.foldl_nil, register_crc32Bit, ih]
    -- a remainder is moved up like what it is the remainder of
    obtain ⟨q, hq⟩ := dvd_modByMonic_sub (X ^ n * register crc) generator
    exact modByMonic_eq_of_dvd_sub monic ⟨X * q, by linear_combination X * hq⟩

/-- A byte goes to the highest powers. -/
theorem register_byte (byte : UInt8) :
    register byte.toUInt32 = ofSymbols (byteBits byte) * X ^ 24 := by
  ext d
  have bit (i : ℕ) : byte.toUInt32.toBitVec.getLsbD i =
      (decide (i < 32) && byte.toBitVec.getLsbD i) := by
    rw [UInt8.toBitVec_toUInt32, BitVec.getLsbD_setWidth]
  rw [coeff_register, coeff_mul_X_pow', coeff_ofSymbols, byteBits, getD_reverse_range, bit]
  rcases Nat.lt_or_ge d 24 with low | high
  · rw [if_pos (by omega), if_neg (by omega), BitVec.getLsbD_of_ge _ _ (by omega), Bool.and_false]
    rfl
  rw [if_pos high]
  rcases Nat.lt_or_ge d 32 with inside | outside
  · rw [if_pos inside, if_pos (by omega), decide_eq_true (by omega), Bool.true_and,
      show 8 - 1 - (d - 24) = 31 - d by omega]
  · rw [if_neg (by omega), if_neg (by omega)]

/-- One byte of the loop. -/
theorem register_crc32Byte (byte : UInt8) :
    register (crc32Byte crc byte) = check generator (register crc) (byteBits byte) := by
  obtain ⟨degree, -⟩ := degree_generator
  rw [crc32Byte, register_bits, register_xor, register_byte, check, degree]
  refine congrArg (· %ₘ generator) ?_
  have eight : (byteBits byte).length = 8 := rfl
  rw [eight]
  ring

theorem register_foldl (bytes : List UInt8) :
    register (bytes.foldl crc32Byte crc) = check generator (register crc) (messageBits bytes) := by
  obtain ⟨-, monic⟩ := degree_generator
  induction bytes generalizing crc with
  | nil => exact (check_nil monic (degree_register crc)).symm
  | cons byte bytes ih =>
    rw [List.foldl_cons, ih, register_crc32Byte, ← check_append monic]
    rfl

theorem decide_symbol (bit : Bool) : decide (symbol bit = 1) = bit := by
  cases bit <;> rfl

theorem symbol_injective : Function.Injective symbol := by
  intro a b same
  rw [← decide_symbol a, ← decide_symbol b, same]

/-- A word is read back from its register. -/
theorem wordOf_register : wordOf (register crc).coeff = crc := by
  refine UInt32.toBitVec_inj.mp (BitVec.eq_of_getLsbD_eq fun i inside => ?_)
  rw [wordOf, UInt32.toBitVec_ofBitVec, BitVec.getLsbD_setWidth, decide_eq_true inside,
    Bool.true_and, BitVec.getLsbD_ofBoolListLE, List.getD_eq_getElem?_getD, List.getElem?_map,
    List.getElem?_range inside, Option.map_some, Option.getD_some, coeff_register,
    if_pos (by omega), Nat.sub_sub_self (by omega), decide_symbol]

/-! ### The whole message -/

theorem getElem?_byteBits {byte : UInt8} {i : ℕ} (inside : i < 8) :
    (byteBits byte)[i]? = some (symbol (byte.toBitVec.getLsbD i)) := by
  rw [byteBits, List.getElem?_map, List.getElem?_range inside]
  rfl

theorem byteBits_injective : Function.Injective byteBits := by
  intro a b same
  refine UInt8.toBitVec_inj.mp (BitVec.eq_of_getLsbD_eq fun i inside => ?_)
  have bit := congrArg (·[i]?) same
  simp only [getElem?_byteBits inside, Option.some.injEq] at bit
  exact symbol_injective bit

theorem messageBits_injective {sent received : List UInt8}
    (same : messageBits sent = messageBits received) : sent = received := by
  induction sent generalizing received with
  | nil =>
    rcases received with _ | ⟨byte, received⟩
    · rfl
    · exact nomatch same
  | cons byte sent ih =>
    rcases received with _ | ⟨other, received⟩
    · exact nomatch same
    · obtain ⟨bits, rest⟩ := List.append_inj same rfl
      rw [byteBits_injective bits, ih rest]

theorem length_messageBits
    (bytes : List UInt8) : (messageBits bytes).length = 8 * bytes.length := by
  induction bytes with
  | nil => rfl
  | cons byte bytes ih =>
    rw [messageBits, List.flatMap_cons, List.length_append, List.length_cons]
    have eight : (byteBits byte).length = 8 := rfl
    have rest : (bytes.flatMap byteBits).length = 8 * bytes.length := ih
    omega

/-- The bits of a message are those at its positions. -/
theorem getElem?_messageBits {bytes : List UInt8} {i : ℕ} (inside : i < 8 * bytes.length) :
    (messageBits bytes)[i]? = some (symbol (bitAt bytes i)) := by
  induction bytes generalizing i with
  | nil => exact absurd inside (Nat.not_lt_zero i)
  | cons byte bytes ih =>
    have eight : (byteBits byte).length = 8 := rfl
    rw [messageBits, List.flatMap_cons]
    rcases Nat.lt_or_ge i 8 with first | later
    · rw [List.getElem?_append_left (eight ▸ first), getElem?_byteBits first, bitAt,
        Nat.div_eq_of_lt first, Nat.mod_eq_of_lt first, List.getD_cons_zero]
    · rw [List.length_cons] at inside
      obtain ⟨j, rfl⟩ := Nat.exists_eq_add_of_le later
      rw [List.getElem?_append_right (by rw [eight]; exact later), eight, Nat.add_sub_cancel_left,
        bitAt, Nat.add_div_left _ (by decide), Nat.add_mod_left, List.getD_cons_succ]
      exact ih (by omega)

/-- **The loop computes the CRC-32/ISO-HDLC**, and it detects every burst of up to 32 bits, in the
order in which the bits go through the register. -/
theorem crc32_exact :
    (∀ bytes, crc32 bytes = isoHdlc bytes) ∧
      ∀ (sent received : List UInt8) (first : ℕ), sent.length = received.length →
        (∀ i, i < first ∨ first + 32 ≤ i → bitAt sent i = bitAt received i) → sent ≠ received →
          crc32 sent ≠ crc32 received := by
  obtain ⟨degree, monic⟩ := degree_generator
  constructor
  · intro bytes
    rw [crc32, isoHdlc, ← register_foldl, wordOf_register]
  · intro sent received first length burst differ same
    have folded : sent.foldl crc32Byte 0xFFFFFFFF = received.foldl crc32Byte 0xFFFFFFFF :=
      (UInt32.xor_left_inj _).mp same
    have checks := congrArg register folded
    rw [register_foldl, register_foldl] at checks
    have as_long : (messageBits sent).length = (messageBits received).length := by
      rw [length_messageBits, length_messageBits, length]
    have outside_burst : ∀ i, i < first ∨ first + generator.natDegree ≤ i →
        (messageBits sent)[i]? = (messageBits received)[i]? := by
      intro i out
      rw [degree] at out
      rcases Nat.lt_or_ge i (8 * sent.length) with inside | outside
      · rw [getElem?_messageBits inside, getElem?_messageBits (length ▸ inside), burst i out]
      · rw [List.getElem?_eq_none (by rwa [length_messageBits]),
          List.getElem?_eq_none (by rwa [length_messageBits, ← length])]
    exact check_ne_of_burst monic constant_generator _ as_long outside_burst
      (fun bits => differ (messageBits_injective bits)) checks

/-- Four bytes that are cleared after the first one. -/
theorem crc32_four_cleared :
    crc32 [0x31, 0x32, 0x33, 0x34, 0x35] = isoHdlc [0x31, 0x32, 0x33, 0x34, 0x35] ∧
      crc32 [0x31, 0x32, 0x33, 0x34, 0x35] ≠ crc32 [0x31, 0, 0, 0, 0] := by
  refine ⟨crc32_exact.1 _, crc32_exact.2 _ _ 8 rfl (fun i out => ?_) (by decide)⟩
  have early : ∀ i < 8, bitAt [0x31, 0x32, 0x33, 0x34, 0x35] i = bitAt [0x31, 0, 0, 0, 0] i := by
    decide
  rcases out with first | past
  · exact early i first
  · have none (bytes : List UInt8) (five : bytes.length = 5) : bitAt bytes i = false := by
      rw [bitAt, List.getD_eq_default _ _ (by omega)]
      exact BitVec.getLsbD_zero
    rw [none _ rfl, none _ rfl]

end AccessoryController.CompanionProtocol
