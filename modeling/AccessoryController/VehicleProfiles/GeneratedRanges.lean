import AccessoryController.ProfileRuntime.ExtractLaw
import AccessoryController.ProfileRuntime.RawArithmeticLaw
import AccessoryController.VehicleProfiles.RuntimeCodegen

/-!
# Generated ranges are exact

A raw value stands for a physical one. The generated raw ranges of a binding let a raw value pass
exactly when its physical value lies within the bounds of the field and in none of the invalid
ranges of the binding. The pivot of an affine map is the permitted raw value nearest to its zero,
and the emitted map about the pivot is the map of the binding up to the rounding of its constants.

## Main definitions

* `ProfileField.physical`: the physical value of a raw value
* `Usable`: the raw values that the profile lets pass
* `OfField`: the raw values of a field

## Main results

* `value_rawValue`: a generated raw value stands for its integer
* `permitted_iff_usable`: the generated ranges
* `conversionPivot_nearest`: the pivot
* `extended_eq_ok`, `emitted_map_near`: the emitted constants
* `generated_conversion_exact`: generated constants over the frames of a message
* `generated_pivot_nearest`, `generated_invalid_ranges`: the pivot and the invalid ranges
-/

namespace AccessoryController.VehicleProfiles

open Grouping Outcome Intervals ProfileRuntime

/-! ### Raw values -/

/-- A raw value of a field. -/
structure OfField (field : ProfileField) (raw : RawValue) : Prop where
  shaped : raw.Shaped
  length : raw.bitLength = field.length
  signed : raw.isSigned = field.signed

/-- An integer within the limits of a field. -/
def InLimits (field : ProfileField) (raw : ℤ) : Prop :=
  (rawLimits field).1 ≤ raw ∧ raw ≤ (rawLimits field).2

variable {field : ProfileField} {raw : RawValue} {permitted : ℤ × ℤ} {conversion : Conversion}
  {generated : NumberConversion}

theorem two_pow_length (positive : 1 ≤ field.length) :
    (2 : ℤ) ^ field.length = 2 * 2 ^ (field.length - 1) := by
  rw [← pow_succ', Nat.sub_add_cancel positive]

/-- **A generated raw value** stands for its integer. -/
theorem value_rawValue (length : 1 ≤ field.length ∧ field.length ≤ 64) {raw : ℤ}
    (within : InLimits field raw) :
    OfField field (rawValue raw field) ∧ (rawValue raw field).value = raw := by
  have double := two_pow_length length.1
  have positive : (0 : ℤ) < 2 ^ (field.length - 1) := by positivity
  have nonneg : 0 ≤ raw % 2 ^ field.length := Int.emod_nonneg _ (by positivity)
  have small : raw % 2 ^ field.length < 2 ^ field.length := Int.emod_lt_of_pos _ (by positivity)
  have word : (2 : ℤ) ^ field.length ≤ 2 ^ 64 := pow_le_pow_right₀ (by norm_num) length.2
  have toNat : ((bits raw field.length).toNat : ℤ) = raw % 2 ^ field.length := by
    rw [bits, BitVec.toNat_ofNat, Nat.mod_eq_of_lt (by omega), Int.toNat_of_nonneg nonneg]
  have shaped : (rawValue raw field).Shaped := by
    refine ⟨length, ?_⟩
    have : ((bits raw field.length).toNat : ℤ) < ((2 ^ field.length : ℕ) : ℤ) := by
      rw [toNat]
      push_cast
      exact small
    exact_mod_cast this
  refine ⟨⟨shaped, rfl, rfl⟩, ?_⟩
  have high : 2 ^ (field.length - 1) ≤ (bits raw field.length).toNat ↔
      (2 : ℤ) ^ (field.length - 1) ≤ raw % 2 ^ field.length := by
    rw [← toNat]
    norm_cast
  rw [value_eq shaped]
  unfold InLimits rawLimits at within
  change (if field.signed = true ∧ 2 ^ (field.length - 1) ≤ (bits raw field.length).toNat then
    ((bits raw field.length).toNat : ℤ) - 2 ^ field.length
    else ((bits raw field.length).toNat : ℤ)) = raw
  simp only [high, toNat]
  cases signed : field.signed with
  | false =>
    rw [signed] at within
    simp only [Bool.false_eq_true, if_false, false_and] at within ⊢
    exact Int.emod_eq_of_lt within.1 (by omega)
  | true =>
    rw [signed] at within
    simp only [if_true, true_and] at within ⊢
    rcases lt_or_ge raw 0 with negative | nonneg
    · have wrapped : raw % 2 ^ field.length = raw + 2 ^ field.length := by
        rw [← Int.add_emod_right, Int.emod_eq_of_lt (by omega) (by omega)]
      rw [wrapped, if_pos (by omega)]
      omega
    · rw [Int.emod_eq_of_lt nonneg (by omega), if_neg (by omega)]

/-- The integer of a raw value of a field. -/
theorem inLimits_of_ofField (ofField : OfField field raw) : InLimits field raw.value := by
  have positive : 1 ≤ field.length := ofField.length ▸ ofField.shaped.1.1
  have double := two_pow_length positive
  have small : (raw.bits.toNat : ℤ) < 2 ^ field.length := by
    have := ofField.shaped.2
    rw [ofField.length] at this
    exact_mod_cast this
  rw [value_eq ofField.shaped, ofField.length, ofField.signed]
  unfold InLimits rawLimits
  cases signed : field.signed with
  | false =>
    simp only [Bool.false_eq_true, if_false, false_and]
    omega
  | true =>
    have cast : ((2 ^ (field.length - 1) : ℕ) : ℤ) = 2 ^ (field.length - 1) := by push_cast; rfl
    simp only [if_true, true_and]
    split_ifs with high <;> omega

theorem sameField_of_ofField {first second : RawValue} (left : OfField field first)
    (right : OfField field second) : SameField first second :=
  ⟨left.shaped, right.shaped, left.length.trans right.length.symm,
    left.signed.trans right.signed.symm⟩

/-! ### Physical bounds -/

/-- The physical value of a raw value. -/
def ProfileField.physical (field : ProfileField) (raw : ℤ) : ℚ := raw * field.scale + field.offset

/-- **The raw values that a profile lets pass**: their physical values lie within the bounds of the
field and in no invalid range of the binding. -/
def Usable (field : ProfileField) (conversion : Conversion) (raw : ℤ) : Prop :=
  (field.minimum ≤ field.physical raw ∧ field.physical raw ≤ field.maximum) ∧
    ∀ invalid ∈ conversion.invalidRanges,
      ¬ (invalid.minimum ≤ field.physical raw ∧ field.physical raw ≤ invalid.maximum)

instance (field : ProfileField) (conversion : Conversion) (raw : ℤ) :
    Decidable (Usable field conversion raw) := inferInstanceAs (Decidable (_ ∧ _))

/-- The raw interval of a physical one. -/
theorem rawInterval_spec (scale : field.scale ≠ 0) {minimum maximum : ℚ}
    (ordered : minimum ≤ maximum) {raw : ℤ} (within : InLimits field raw) :
    (∃ i ∈ rawInterval field minimum maximum, i.1 ≤ raw ∧ raw ≤ i.2) ↔
      minimum ≤ field.physical raw ∧ field.physical raw ≤ maximum := by
  rw [ProfileField.physical, ← mem_preimage scale field.offset ordered raw]
  unfold rawInterval
  dsimp only
  split_ifs with nonempty
  · simp only [Option.mem_def, Option.some.injEq, exists_eq_left', max_le_iff, le_min_iff]
    exact ⟨fun inside => ⟨inside.1.1, inside.2.1⟩,
      fun inside => ⟨⟨inside.1, within.1⟩, inside.2, within.2⟩⟩
  · constructor
    · rintro ⟨i, none, -⟩
      cases none
    · intro inside
      exact absurd ((max_le inside.1 within.1).trans (le_min inside.2 within.2)) nonempty

/-- The ends of a raw interval, in order and within the limits. -/
theorem ends_rawInterval {minimum maximum : ℚ} {i : ℤ × ℤ}
    (found : rawInterval field minimum maximum = some i) :
    i.1 ≤ i.2 ∧ (rawLimits field).1 ≤ i.1 ∧ i.2 ≤ (rawLimits field).2 := by
  unfold rawInterval at found
  dsimp only at found
  split_ifs at found with nonempty
  obtain rfl := Option.some.inj found
  exact ⟨nonempty, le_max_right _ _, min_le_right _ _⟩

theorem permittedInterval_eq_ok (ok : permittedInterval field = .ok permitted) :
    rawInterval field field.minimum field.maximum = some permitted := by
  unfold permittedInterval at ok
  rcases found : rawInterval field field.minimum field.maximum with _ | interval
  · rw [found] at ok
    cases ok
  · rw [found] at ok
    rw [Except.ok.inj ok]

/-- The raw interval of an invalid range, cut to the permitted values. -/
theorem invalidInterval_spec (scale : field.scale ≠ 0) {invalid : InvalidRange}
    (ordered : invalid.minimum ≤ invalid.maximum) {raw : ℤ} (within : InLimits field raw) :
    (∃ i ∈ invalidInterval field permitted invalid, i.1 ≤ raw ∧ raw ≤ i.2) ↔
      (permitted.1 ≤ raw ∧ raw ≤ permitted.2) ∧
        invalid.minimum ≤ field.physical raw ∧ field.physical raw ≤ invalid.maximum := by
  rw [← rawInterval_spec scale ordered within]
  unfold invalidInterval
  rcases rawInterval field invalid.minimum invalid.maximum with _ | interval
  · constructor
    · rintro ⟨i, none, -⟩
      cases none
    · rintro ⟨-, i, none, -⟩
      cases none
  · dsimp only
    split_ifs with nonempty
    · simp only [Option.mem_def, Option.some.injEq, exists_eq_left', max_le_iff, le_min_iff]
      omega
    · constructor
      · rintro ⟨i, none, -⟩
        cases none
      · rintro ⟨here, i, same, inside⟩
        obtain rfl := Option.some.inj same
        omega

theorem ends_invalidInterval {i : ℤ × ℤ} {invalid : InvalidRange}
    (found : invalidInterval field permitted invalid = some i) :
    i.1 ≤ i.2 ∧ permitted.1 ≤ i.1 ∧ i.2 ≤ permitted.2 := by
  unfold invalidInterval at found
  rcases interval : rawInterval field invalid.minimum invalid.maximum with _ | interval
  · rw [interval] at found
    cases found
  · rw [interval] at found
    dsimp only at found
    split_ifs at found with nonempty
    obtain rfl := Option.some.inj found
    exact ⟨nonempty, le_max_right _ _, min_le_right _ _⟩

theorem pairwise_sorted_intervals (intervals : List (ℤ × ℤ)) :
    (sortOn toLex intervals).Pairwise fun a b => a.1 ≤ b.1 :=
  (pairwise_sortOn toLex intervals).imp fun {a b} le => by
    rcases Prod.Lex.le_iff.mp le with less | ⟨same, -⟩
    · exact less.le
    · exact same.le

/-- **The invalid raw intervals** hold the permitted values with an invalid physical value. -/
theorem covers_invalidIntervals (scale : field.scale ≠ 0)
    (ordered : ∀ invalid ∈ conversion.invalidRanges, invalid.minimum ≤ invalid.maximum) {raw : ℤ}
    (within : InLimits field raw) :
    Covers (invalidIntervals conversion field permitted) raw ↔
      (permitted.1 ≤ raw ∧ raw ≤ permitted.2) ∧ ∃ invalid ∈ conversion.invalidRanges,
        invalid.minimum ≤ field.physical raw ∧ field.physical raw ≤ invalid.maximum := by
  rw [invalidIntervals, covers_merge (pairwise_sorted_intervals _)]
  simp only [Covers, mem_sortOn, List.mem_filterMap]
  constructor
  · rintro ⟨i, ⟨invalid, mem, found⟩, inside⟩
    obtain ⟨here, physical⟩ := (invalidInterval_spec scale (ordered invalid mem) within).mp
      ⟨i, found, inside⟩
    exact ⟨here, invalid, mem, physical⟩
  · rintro ⟨here, invalid, mem, physical⟩
    obtain ⟨i, found, inside⟩ :=
      (invalidInterval_spec scale (ordered invalid mem) within).mpr ⟨here, physical⟩
    exact ⟨i, ⟨invalid, mem, found⟩, inside⟩

/-- The ends of the invalid raw intervals. -/
theorem ends_invalidIntervals :
    ∀ i ∈ invalidIntervals conversion field permitted,
      i.1 ≤ i.2 ∧ permitted.1 ≤ i.1 ∧ i.2 ≤ permitted.2 := by
  -- two joined intervals are in order and among the permitted values
  refine forall_merge (fun a b first second => ?_) fun i mem => ?_
  · exact ⟨first.1.trans (le_max_left _ _), first.2.1, max_le first.2.2 second.2.2⟩
  · obtain ⟨invalid, -, found⟩ := List.mem_filterMap.mp (mem_sortOn.mp mem)
    exact ends_invalidInterval found

/-- **The generated ranges**: their bounds are values of the field, and a raw value passes exactly
if the profile lets it. -/
theorem permitted_iff_usable {dlc : ℕ} (sound : SoundField dlc field)
    (ordered : ∀ invalid ∈ conversion.invalidRanges, invalid.minimum ≤ invalid.maximum)
    (ok : permittedInterval field = .ok permitted) (ofField : OfField field raw) :
    let invalid := (invalidIntervals conversion field permitted).map fun interval =>
      rawRange interval field
    (rawRange permitted field).Fits raw ∧
      ((rawRange permitted field).Contains raw ∧ OutsideAll raw invalid ↔
        Usable field conversion raw.value) := by
  intro invalid
  have found := permittedInterval_eq_ok ok
  obtain ⟨least, low, high⟩ := ends_rawInterval found
  have within := inLimits_of_ofField ofField
  have spec (i : ℤ × ℤ) (ends : i.1 ≤ i.2 ∧ permitted.1 ≤ i.1 ∧ i.2 ≤ permitted.2) :
      (rawRange i field).Fits raw ∧
        ((rawRange i field).Contains raw ↔ i.1 ≤ raw.value ∧ raw.value ≤ i.2) := by
    obtain ⟨first, firstValue⟩ := value_rawValue sound.length
      (show InLimits field i.1 from ⟨low.trans ends.2.1, (ends.1.trans ends.2.2).trans high⟩)
    obtain ⟨last, lastValue⟩ := value_rawValue sound.length
      (show InLimits field i.2 from ⟨low.trans (ends.2.1.trans ends.1), ends.2.2.trans high⟩)
    refine ⟨⟨sameField_of_ofField ofField first, sameField_of_ofField ofField last, ?_⟩, ?_⟩
    · change (rawValue i.1 field).value ≤ (rawValue i.2 field).value
      rw [firstValue, lastValue]
      exact ends.1
    · change (rawValue i.1 field).value ≤ raw.value ∧ raw.value ≤ (rawValue i.2 field).value ↔ _
      rw [firstValue, lastValue]
  have all : ∀ i ∈ invalidIntervals conversion field permitted,
      i.1 ≤ i.2 ∧ permitted.1 ≤ i.1 ∧ i.2 ≤ permitted.2 := ends_invalidIntervals
  obtain ⟨fits, contains⟩ := spec permitted ⟨least, le_refl _, le_refl _⟩
  have bounded : permitted.1 ≤ raw.value ∧ raw.value ≤ permitted.2 ↔
      field.minimum ≤ field.physical raw.value ∧ field.physical raw.value ≤ field.maximum := by
    rw [← rawInterval_spec sound.scale sound.bounds within, found]
    simp
  have free : OutsideAll raw invalid ↔
      ¬ Covers (invalidIntervals conversion field permitted) raw.value := by
    rw [OutsideAll, List.forall_mem_map]
    constructor
    · rintro outside ⟨i, mem, inside⟩
      exact (outside i mem).2 ((spec i (all i mem)).2.mpr inside)
    · intro outside i mem
      refine ⟨(spec i (all i mem)).1, fun inside => ?_⟩
      exact outside ⟨i, mem, (spec i (all i mem)).2.mp inside⟩
  refine ⟨fits, ?_⟩
  rw [free, contains, covers_invalidIntervals sound.scale ordered within, bounded, Usable]
  refine and_congr_right fun inside => ?_
  rw [not_and, not_exists]
  constructor
  · intro none invalid mem caught
    exact none inside invalid ⟨mem, caught⟩
  · rintro outside - invalid ⟨mem, caught⟩
    exact outside invalid mem caught

/-! ### The pivot -/

/-- The zero of the affine map of a binding, over raw values. -/
def affineZero (conversion : Conversion) (field : ProfileField) : ℚ :=
  -(bindingConversion conversion field 0).2 / (bindingConversion conversion field 0).1

/-- **The pivot** is a permitted value, and no permitted value is nearer to the zero of the map. -/
theorem conversionPivot_nearest (nonempty : permitted.1 ≤ permitted.2)
    (scale : field.scale * conversion.scale ≠ 0) :
    let pivot := conversionPivot conversion field permitted
    (permitted.1 ≤ pivot ∧ pivot ≤ permitted.2) ∧
      ∀ n : ℤ, permitted.1 ≤ n → n ≤ permitted.2 →
        |pivot - affineZero conversion field| ≤ |n - affineZero conversion field| := by
  intro pivot
  have here : pivot =
      min permitted.2 (max permitted.1 (roundHalfEven (affineZero conversion field))) := by
    change conversionPivot conversion field permitted = _
    exact if_neg scale
  refine ⟨by omega, fun n low high => ?_⟩
  obtain ⟨upper, lower⟩ := roundHalfEven_near (affineZero conversion field)
  generalize affineZero conversion field = zero at here upper lower
  rcases lt_or_ge (roundHalfEven zero) permitted.1 with before | after
  · -- the zero lies before the permitted values
    have first : pivot = permitted.1 := by omega
    have apart : (roundHalfEven zero : ℚ) + 1 ≤ permitted.1 := by exact_mod_cast before
    have least : (permitted.1 : ℚ) ≤ n := by exact_mod_cast low
    rw [first, abs_of_nonneg (by linarith), abs_of_nonneg (by linarith)]
    linarith
  rcases lt_or_ge permitted.2 (roundHalfEven zero) with beyond | within
  · have last : pivot = permitted.2 := by omega
    have apart : (permitted.2 : ℚ) + 1 ≤ roundHalfEven zero := by exact_mod_cast beyond
    have greatest : (n : ℚ) ≤ permitted.2 := by exact_mod_cast high
    rw [last, abs_of_nonpos (by linarith), abs_of_nonpos (by linarith)]
    linarith
  · have rounded : pivot = roundHalfEven zero := by omega
    rw [rounded]
    exact roundHalfEven_nearest zero n

/-- The value that a binding makes of a raw value. -/
def Conversion.target (conversion : Conversion) (field : ProfileField) (raw : ℤ) : ℚ :=
  field.physical raw * conversion.scale + conversion.offset

theorem bindingConversion_target (conversion : Conversion) (field : ProfileField) (pivot : ℤ) :
    (bindingConversion conversion field pivot).2 = conversion.target field pivot := by
  unfold bindingConversion Conversion.target ProfileField.physical
  ring

/-- The map about a pivot is the map of the binding. -/
theorem target_eq (conversion : Conversion) (field : ProfileField) (pivot raw : ℤ) :
    conversion.target field raw = (raw - pivot : ℤ) * (field.scale * conversion.scale) +
      conversion.target field pivot := by
  unfold Conversion.target ProfileField.physical
  push_cast
  ring

/-! ### Frames -/

def ByteOrder.runtime : ByteOrder → ProfileRuntime.ByteOrder
  | .intel => .intel
  | .motorola => .motorola

/-- **The raw value of a field** in a payload: the bits at its coordinates, each in its place. -/
structure Reads (field : ProfileField) (data : Payload) (raw : RawValue) : Prop where
  ofField : OfField field raw
  bits : ∀ i c, field.bits[i]? = some c →
    raw.bits.getLsbD (field.byteOrder.runtime.place field.length i) = bitAt data c

theorem host_runtime (order : ByteOrder) : order.runtime.host = order := by
  cases order <;> rfl

theorem start_mem_bits (positive : 1 ≤ field.length) : field.start ∈ field.bits := by
  obtain ⟨length, same⟩ := Nat.exists_eq_add_of_le' positive
  rw [ProfileField.bits, same, ← host_runtime field.byteOrder, occupiedBits_succ]
  exact List.mem_cons_self

/-- A field that fits the payload is extracted. -/
theorem extract_reads {frame : VehicleCore.RawCanFrame} (standard : StandardData frame)
    (sound : SoundField frame.dlc field) :
    ∃ raw, extractRawValue frame field.start field.length field.byteOrder.runtime field.signed =
      .ok (some raw) ∧ Reads field frame.data raw := by
  have within : frame.dlc * 8 ≤ 64 := Nat.mul_le_mul_right 8 standard.dlc
  have starts := sound.inside field.start (start_mem_bits sound.length.1)
  have length : field.bits.length = field.length := length_occupiedBits _ _ _
  have inside : ∀ c ∈ occupiedBits field.start field.length field.byteOrder, c < frame.dlc * 8 :=
    sound.inside
  rw [extractRawValue_eq standard (by omega) sound.length, host_runtime, if_pos inside]
  obtain ⟨placed, clear⟩ := getLsbD_gather frame.data field.byteOrder.runtime field.bits
    (by rw [length]; exact sound.length.2)
  rw [length] at placed clear
  exact ⟨_, rfl, ⟨⟨sound.length, BitField.toNat_lt_iff.mpr clear⟩, rfl, rfl⟩, placed⟩

theorem bindingCode_eq_ok {binding : Binding} {constants : BindingConstants}
    (ok : bindingCode binding field = .ok constants) :
    ∃ permitted, permittedInterval field = .ok permitted ∧
      constants.permitted = rawRange permitted field ∧
      constants.invalidRanges = (invalidIntervals binding.conversion field permitted).map
        (fun interval => rawRange interval field) ∧
      ∀ conversion ∈ constants.conversion, binding.type ≠ .enum ∧
        numberConversion binding.conversion field permitted = .ok conversion := by
  rw [bindingCode] at ok
  obtain ⟨permitted, bounds, ok⟩ := bind_eq_ok.mp ok
  obtain ⟨conversion, generated, ok⟩ := bind_eq_ok.mp ok
  obtain rfl := Except.ok.inj ok
  refine ⟨permitted, bounds, rfl, rfl, fun affine mem => ?_⟩
  obtain rfl := Option.mem_def.mp mem
  unfold affineCode at generated
  cases type : binding.type with
  | enum =>
    rw [type] at generated
    cases generated
  | number | boolean =>
    rw [type] at generated
    obtain ⟨made, number, same⟩ := bind_eq_ok.mp generated
    refine ⟨nofun, ?_⟩
    rwa [← Option.some.inj (Except.ok.inj same)]

/-- **An emitted constant** is finite, and within twice the precision of its value. -/
theorem extended_eq_ok {value : ℚ} {constant : ExtendedConstant}
    (ok : extended value = .ok constant) :
    constant.isFinite = true ∧ |value - constant.toRat| ≤ Binary64.tolerance 106 value := by
  simp only [extended, refuse_bind_eq_ok] at ok
  obtain ⟨high, low, ok⟩ := ok
  rw [Bool.not_eq_false] at high low
  obtain rfl := Except.ok.inj ok
  refine ⟨Bool.and_eq_true_iff.mpr ⟨high, low⟩, ?_⟩
  change |value - ((Binary64.ofRat value).toRat + (Binary64.ofRat _).toRat)| ≤ _
  rw [Binary64.toRat_ofRat low, Binary64.toRat_ofRat high]
  exact Binary64.abs_sub_limbs_le value

theorem numberConversion_eq_ok (ok : numberConversion conversion field permitted = .ok generated) :
    let pivot := conversionPivot conversion field permitted
    generated.pivot = rawValue pivot field ∧
      extended (field.scale * conversion.scale) = .ok generated.scale ∧
      extended (bindingConversion conversion field pivot).2 = .ok generated.targetAtPivot := by
  obtain ⟨scale, hscale, ok⟩ := bind_eq_ok.mp ok
  obtain ⟨target, htarget, ok⟩ := bind_eq_ok.mp ok
  obtain rfl := Except.ok.inj ok
  exact ⟨rfl, hscale, htarget⟩

/-- A slope that does not vanish is emitted by its relative error alone. -/
theorem tolerance_slope {slope : ℚ} (nonzero : floatMin ≤ |slope|) :
    Binary64.tolerance 106 slope = |slope| / 2 ^ 106 := by
  refine max_eq_left ?_
  calc
    (1 : ℚ) / 2 ^ 1075 ≤ 1 / 2 ^ 255 :=
      one_div_le_one_div_of_le (by positivity) (pow_le_pow_right₀ one_le_two (by norm_num))
    _ = floatMin / 2 ^ 106 := by rw [floatMin, div_div, ← pow_add]
    _ ≤ |slope| / 2 ^ 106 := div_le_div_of_nonneg_right nonzero (by positivity)

/-- **The emitted constants** pass the checks at run time. -/
theorem finiteConstants_of_ok (nonzero : floatMin ≤ |field.scale * conversion.scale|)
    (ok : numberConversion conversion field permitted = .ok generated) :
    generated.finiteConstants = true := by
  obtain ⟨-, hscale, htarget⟩ := numberConversion_eq_ok ok
  obtain ⟨finite, near⟩ := extended_eq_ok hscale
  have slope : generated.scale.isZero = false := by
    by_contra zero
    simp only [ExtendedConstant.isZero, Bool.not_eq_false, Bool.and_eq_true, decide_eq_true_eq] at zero
    rw [tolerance_slope nonzero, ExtendedConstant.toRat, zero.1, zero.2, add_zero, sub_zero] at near
    have positive : 0 < |field.scale * conversion.scale| :=
      (show (0 : ℚ) < floatMin by norm_num [floatMin]).trans_le nonzero
    have smaller := div_lt_self positive (show (1 : ℚ) < 2 ^ 106 by norm_num)
    exact absurd near (not_le.mpr smaller)
  simp [NumberConversion.finiteConstants, finite, (extended_eq_ok htarget).1, slope]

/-- Two values of one field are less than a word apart. -/
theorem natAbs_sub_value_lt {pivot : RawValue} (same : SameField raw pivot) :
    (raw.value - pivot.value).natAbs < 2 ^ 64 := by
  have here := value_bounds same.1
  have there := value_bounds same.2.1
  rw [← same.2.2.2] at there
  cases sign : raw.isSigned with
  | false =>
    have := here.1 sign
    have := there.1 sign
    omega
  | true =>
    have := here.2 sign
    have := there.2 sign
    omega

/-- **The emitted affine map** is the map of the binding, up to the rounding of its constants. -/
theorem emitted_map_near {pivot : ℤ} (delta : ℤ) {scale targetAtPivot : ExtendedConstant}
    (nonzero : floatMin ≤ |field.scale * conversion.scale|)
    (hscale : extended (field.scale * conversion.scale) = .ok scale)
    (htarget : extended (conversion.target field pivot) = .ok targetAtPivot) :
    |delta * scale.toRat + targetAtPivot.toRat - conversion.target field (pivot + delta)| ≤
      (|delta * (field.scale * conversion.scale)| + |conversion.target field pivot|) / 2 ^ 106 +
        1 / 2 ^ 1075 := by
  have slope := (extended_eq_ok hscale).2
  have target := (extended_eq_ok htarget).2
  rw [tolerance_slope nonzero] at slope
  rw [target_eq conversion field pivot, add_sub_cancel_left]
  generalize field.scale * conversion.scale = exactSlope at slope ⊢
  generalize conversion.target field pivot = exactTarget at target ⊢
  have split : delta * scale.toRat + targetAtPivot.toRat - (delta * exactSlope + exactTarget) =
      -(delta * (exactSlope - scale.toRat) + (exactTarget - targetAtPivot.toRat)) := by ring
  rw [split, abs_neg, abs_mul]
  calc
    _ ≤ |(delta : ℚ) * (exactSlope - scale.toRat)| + |exactTarget - targetAtPivot.toRat| :=
      abs_add_le _ _
    _ ≤ |(delta : ℚ)| * (|exactSlope| / 2 ^ 106) + Binary64.tolerance 106 exactTarget := by
      rw [abs_mul]
      exact add_le_add (mul_le_mul_of_nonneg_left slope (abs_nonneg _)) target
    _ ≤ |(delta : ℚ)| * (|exactSlope| / 2 ^ 106) + (|exactTarget| / 2 ^ 106 + 1 / 2 ^ 1075) :=
      add_le_add_right (max_le_add_of_nonneg (by positivity) (by positivity)) _
    _ = _ := by rw [add_div, mul_div_assoc, add_assoc]

/-- **A generated affine map**: the runtime hands on the exact difference to the pivot of every
usable raw value, and of no other. -/
theorem convertDelta_exact {dlc : ℕ} (sound : SoundField dlc field)
    (nonzero : floatMin ≤ |field.scale * conversion.scale|)
    (ordered : ∀ invalid ∈ conversion.invalidRanges, invalid.minimum ≤ invalid.maximum)
    (bounds : permittedInterval field = .ok permitted)
    (code : numberConversion conversion field permitted = .ok generated)
    (ofField : OfField field raw) :
    ∃ delta : ExtendedValue, delta.Halves ∧
      delta.toInt = raw.value - generated.pivot.value ∧
      convertDelta raw generated.pivot generated.finiteConstants (rawRange permitted field)
        ((invalidIntervals conversion field permitted).map fun i => rawRange i field) =
          .ok (if Usable field conversion raw.value then some delta else none) ∧
      |delta.toInt * generated.scale.toRat + generated.targetAtPivot.toRat -
          conversion.target field raw.value| ≤
        (|delta.toInt * (field.scale * conversion.scale)| +
          |conversion.target field generated.pivot.value|) / 2 ^ 106 + 1 / 2 ^ 1075 := by
  have found := permittedInterval_eq_ok bounds
  obtain ⟨nonempty, low, high⟩ := ends_rawInterval found
  obtain ⟨fit, permits⟩ := permitted_iff_usable sound ordered bounds ofField
  have scale : field.scale * conversion.scale ≠ 0 :=
    abs_pos.mp ((show (0 : ℚ) < floatMin by norm_num [floatMin]).trans_le nonzero)
  obtain ⟨between, -⟩ := conversionPivot_nearest nonempty scale
  rw [finiteConstants_of_ok nonzero code]
  obtain ⟨hpivot, hscale, htarget⟩ := numberConversion_eq_ok code
  rw [bindingConversion_target] at htarget
  rw [hpivot]
  clear code hpivot
  generalize conversionPivot conversion field permitted = pivot at between htarget ⊢
  obtain ⟨pivotField, pivotValue⟩ := value_rawValue sound.length
    (show InLimits field pivot from ⟨low.trans between.1, between.2.trans high⟩)
  have inside : (rawRange permitted field).Contains (rawValue pivot field) := by
    have first := (value_rawValue sound.length
      (show InLimits field permitted.1 from ⟨low, nonempty.trans high⟩)).2
    have last := (value_rawValue sound.length
      (show InLimits field permitted.2 from ⟨low.trans nonempty, high⟩)).2
    refine ⟨?_, ?_⟩
    · exact first.le.trans (between.1.trans pivotValue.ge)
    · exact pivotValue.le.trans (between.2.trans last.ge)
  have same := sameField_of_ofField ofField pivotField
  obtain ⟨halves, value⟩ := ofMagnitude_halves (natAbs_sub_value_lt same)
    (decide (raw.value < (rawValue pivot field).value))
  rw [pivotValue] at halves value ⊢
  have difference : (ExtendedValue.ofMagnitude (raw.value - pivot).natAbs
      (decide (raw.value < pivot))).toInt = raw.value - pivot := by
    rw [value]
    by_cases less : raw.value < pivot
    · rw [if_pos (decide_eq_true less)]
      omega
    · rw [if_neg (by simpa using less)]
      omega
  refine ⟨_, halves, difference, ?_, ?_⟩
  · rw [convertDelta_eq, pivotValue]
    refine congrArg Except.ok (if_congr ?_ rfl rfl)
    rw [← permits]
    constructor
    · rintro ⟨-, -, -, contained, -, outside⟩
      exact ⟨contained, outside⟩
    · rintro ⟨contained, outside⟩
      exact ⟨same, rfl, fit, contained, inside, outside⟩
  · have near := emitted_map_near (raw.value - pivot) nonzero hscale htarget
    rw [add_sub_cancel] at near
    rwa [difference]

/-- **Generated constants.** Of every data frame of its message, the runtime extracts the bits at the
coordinates of a checked field; the ranges of a checked binding let the raw value pass exactly if
its physical value is within the bounds of the field and in no invalid range; and a number or a
Boolean is made from the exact difference to the pivot, by a map whose emitted constants pass the
checks of the runtime and are those of the binding up to their rounding. -/
theorem generated_conversion_exact {sources : List ProfileSource} {message : ProfileMessage}
    {field : ProfileField} {fieldPath path : String}
    (fieldChecked : checkField sources message fieldPath field = .ok ())
    {unitConversions : UnitConversions} {refs : List String} {binding : Binding}
    (bindingChecked : checkDirect unitConversions path refs binding field = .ok ())
    {constants : BindingConstants} (code : bindingCode binding field = .ok constants)
    {frame : VehicleCore.RawCanFrame} (standard : StandardData frame)
    (dlc : frame.dlc = message.dlc) :
    ∃ raw, extractRawValue frame field.start field.length field.byteOrder.runtime field.signed =
        .ok (some raw) ∧ Reads field frame.data raw ∧
      (∃ permitted outside, inRange raw constants.permitted = .ok (some permitted) ∧
        outsideAll raw constants.invalidRanges = .ok outside ∧
        ((permitted && outside) = true ↔ Usable field binding.conversion raw.value)) ∧
      ∀ conversion ∈ constants.conversion, ∃ delta : ExtendedValue, delta.Halves ∧
        delta.toInt = raw.value - conversion.pivot.value ∧
        convertDelta raw conversion.pivot conversion.finiteConstants constants.permitted
            constants.invalidRanges =
          .ok (if Usable field binding.conversion raw.value then some delta else none) ∧
        |delta.toInt * conversion.scale.toRat + conversion.targetAtPivot.toRat -
            binding.conversion.target field raw.value| ≤
          (|delta.toInt * (field.scale * binding.conversion.scale)| +
            |binding.conversion.target field conversion.pivot.value|) / 2 ^ 106 +
              1 / 2 ^ 1075 := by
  have sound : SoundField frame.dlc field := dlc ▸ soundField_of_checkField fieldChecked
  have direct := soundDirect_of_checkDirect bindingChecked
  have ordered : ∀ invalid ∈ binding.conversion.invalidRanges, invalid.minimum ≤ invalid.maximum :=
    fun invalid mem => (direct.ranges invalid mem).1
  obtain ⟨permitted, bounds, range, invalid, affine⟩ := bindingCode_eq_ok code
  obtain ⟨raw, extracted, reads⟩ := extract_reads standard sound
  obtain ⟨fit, permits⟩ := permitted_iff_usable sound ordered bounds reads.ofField
  refine ⟨raw, extracted, reads, ⟨decide (constants.permitted.Contains raw), _, ?_,
    outsideAll_eq raw _, ?_⟩, fun conversion mem => ?_⟩
  · rw [range, inRange_eq, if_pos fit]
  · rw [range, invalid, Bool.and_eq_true, decide_eq_true_eq, decide_eq_true_eq]
    exact permits
  · rw [range, invalid]
    obtain ⟨type, code⟩ := affine conversion mem
    exact convertDelta_exact sound (direct.slope sound type) ordered bounds code reads.ofField

/-- **The generated pivot** is the permitted raw value whose target is nearest to zero. -/
theorem generated_pivot_nearest {sources : List ProfileSource} {message : ProfileMessage}
    {field : ProfileField} {fieldPath path : String}
    (fieldChecked : checkField sources message fieldPath field = .ok ())
    {unitConversions : UnitConversions} {refs : List String} {binding : Binding}
    (bindingChecked : checkDirect unitConversions path refs binding field = .ok ())
    {permitted : ℤ × ℤ} (bounds : permittedInterval field = .ok permitted) :
    let pivot := conversionPivot binding.conversion field permitted
    let target := fun raw : ℤ =>
      field.physical raw * binding.conversion.scale + binding.conversion.offset
    (permitted.1 ≤ pivot ∧ pivot ≤ permitted.2) ∧
      ∀ raw : ℤ, permitted.1 ≤ raw → raw ≤ permitted.2 → |target pivot| ≤ |target raw| := by
  intro pivot target
  have nonzero : field.scale * binding.conversion.scale ≠ 0 :=
    mul_ne_zero (soundField_of_checkField fieldChecked).scale
      (soundDirect_of_checkDirect bindingChecked).scale
  obtain ⟨within, nearest⟩ :=
    conversionPivot_nearest (ends_rawInterval (permittedInterval_eq_ok bounds)).1 nonzero
  -- the target is the slope times the distance to the zero
  have distance (raw : ℤ) : |target raw| =
      |field.scale * binding.conversion.scale| * |raw - affineZero binding.conversion field| := by
    have zero : field.scale * binding.conversion.scale * affineZero binding.conversion field =
        -(bindingConversion binding.conversion field 0).2 := mul_div_cancel₀ _ nonzero
    rw [← abs_mul, mul_sub, zero, bindingConversion]
    congr 1
    change (raw * field.scale + field.offset) * binding.conversion.scale +
      binding.conversion.offset = _
    push_cast
    ring
  refine ⟨within, fun raw low high => ?_⟩
  rw [distance, distance]
  exact mul_le_mul_of_nonneg_left (nearest raw low high) (abs_nonneg _)

/-- **The generated invalid ranges** lie among the permitted values, neither overlap nor touch, and
hold exactly the permitted values whose physical value is invalid. -/
theorem generated_invalid_ranges {sources : List ProfileSource} {message : ProfileMessage}
    {field : ProfileField} {fieldPath path : String}
    (fieldChecked : checkField sources message fieldPath field = .ok ())
    {unitConversions : UnitConversions} {refs : List String} {binding : Binding}
    (bindingChecked : checkDirect unitConversions path refs binding field = .ok ())
    {permitted : ℤ × ℤ} (bounds : permittedInterval field = .ok permitted) :
    (∀ i ∈ invalidIntervals binding.conversion field permitted,
        i.1 ≤ i.2 ∧ permitted.1 ≤ i.1 ∧ i.2 ≤ permitted.2) ∧
      (invalidIntervals binding.conversion field permitted).Pairwise (fun a b => a.2 + 1 < b.1) ∧
      ∀ raw : ℤ, permitted.1 ≤ raw → raw ≤ permitted.2 →
        (Covers (invalidIntervals binding.conversion field permitted) raw ↔
          ∃ invalid ∈ binding.conversion.invalidRanges,
            invalid.minimum ≤ field.physical raw ∧ field.physical raw ≤ invalid.maximum) := by
  have sound := soundField_of_checkField fieldChecked
  have ordered : ∀ invalid ∈ binding.conversion.invalidRanges, invalid.minimum ≤ invalid.maximum :=
    fun invalid mem => ((soundDirect_of_checkDirect bindingChecked).ranges invalid mem).1
  obtain ⟨-, least, greatest⟩ := ends_rawInterval (permittedInterval_eq_ok bounds)
  refine ⟨ends_invalidIntervals, separated_merge (pairwise_sorted_intervals _), ?_⟩
  intro raw low high
  rw [covers_invalidIntervals sound.scale ordered ⟨least.trans low, high.trans greatest⟩]
  exact and_iff_right ⟨low, high⟩

/-! ### A temperature -/

/-- A temperature that falls as the raw value grows, by a tenth of a degree. -/
def coolantField : ProfileField where
  id := "f1"
  name := "COOLANT"
  sources := ["s1"]
  start := 0
  length := 8
  byteOrder := .intel
  signed := false
  scale := -1 / 10
  offset := 201 / 20
  minimum := -15
  maximum := 10
  unit := "degC"
  valueTable := []

/-- The invalid ranges are out of order; two of them overlap, and two touch as raw values. -/
def coolantBinding : Binding where
  type := .number
  unit := "degC"
  conversion := ⟨"degC", "degC", 1, 0, "float32",
    [⟨-5, -3⟩, ⟨9, 10⟩, ⟨-19 / 20, -1 / 2⟩, ⟨-4, -1⟩]⟩
  enumMap := []

theorem checkField_coolant : checkField [⟨"s1", .dbc, "hs"⟩]
    ⟨"m1", "hs", .standard, 0x201, 8, [coolantField]⟩ "$" coolantField = .ok () := by
  decide +kernel

theorem checkDirect_coolant :
    checkDirect [(("degC", "degC"), 1, 0)] "$" ["s1"] coolantBinding coolantField = .ok () := by
  decide +kernel

theorem permittedInterval_coolant : permittedInterval coolantField = .ok (1, 250) := by
  decide +kernel

def coolantFrame : VehicleCore.RawCanFrame where
  identifier := 0x201
  data := #v[40, 0, 0, 0, 0, 0, 0, 0]
  dlc := 8

theorem bindingCode_coolant :
    ((bindingCode coolantBinding coolantField).toOption.bind BindingConstants.conversion).map
      NumberConversion.pivot = some (rawValue 100 coolantField) := by
  decide +kernel

/-- Six degrees in a frame: the raw value is handed on, sixty below the pivot. -/
theorem generated_conversion_exact_coolant :
    ∃ constants conversion raw delta, bindingCode coolantBinding coolantField = .ok constants ∧
      constants.conversion = some conversion ∧
      extractRawValue coolantFrame 0 8 .intel false = .ok (some raw) ∧
      convertDelta raw conversion.pivot conversion.finiteConstants constants.permitted
        constants.invalidRanges = .ok (some delta) ∧ delta.toInt = -60 := by
  have pivot := bindingCode_coolant
  rcases code : bindingCode coolantBinding coolantField with error | constants
  · rw [code] at pivot
    cases pivot
  rw [code] at pivot
  obtain ⟨conversion, affine, hpivot⟩ := Option.map_eq_some_iff.mp pivot
  obtain ⟨raw, extracted, -, -, conversions⟩ := generated_conversion_exact checkField_coolant
    checkDirect_coolant code (show StandardData coolantFrame from ⟨by decide, rfl, rfl, by decide⟩)
    rfl
  obtain ⟨delta, -, difference, converted, -⟩ := conversions conversion affine
  have read : extractRawValue coolantFrame 0 8 .intel false = .ok (some ⟨40, 8, false⟩) := by
    decide +kernel
  obtain rfl := Option.some.inj (Except.ok.inj (read.symm.trans extracted))
  rw [if_pos (by decide +kernel)] at converted
  refine ⟨constants, conversion, _, delta, rfl, affine, read, converted, ?_⟩
  rw [difference, hpivot]
  decide +kernel

/-- The zero of the temperature lies between two raw values; the even one is the pivot, and the
other one is as near. -/
theorem generated_pivot_nearest_coolant :
    let target := fun raw : ℤ =>
      coolantField.physical raw * coolantBinding.conversion.scale + coolantBinding.conversion.offset
    conversionPivot coolantBinding.conversion coolantField (1, 250) = 100 ∧
      |target 100| ≤ |target 101| ∧ |target 101| = |target 100| := by
  have pivot : conversionPivot coolantBinding.conversion coolantField (1, 250) = 100 := by
    decide +kernel
  have nearest := (generated_pivot_nearest checkField_coolant checkDirect_coolant
    permittedInterval_coolant).2 101 (by decide) (by decide)
  rw [pivot] at nearest
  exact ⟨pivot, nearest, by decide +kernel⟩

/-- The four ranges leave two intervals of raw values. -/
theorem generated_invalid_ranges_coolant :
    invalidIntervals coolantBinding.conversion coolantField (1, 250) = [(1, 10), (106, 150)] ∧
      Covers (invalidIntervals coolantBinding.conversion coolantField (1, 250)) 111 := by
  refine ⟨by decide +kernel, ?_⟩
  have covers := (generated_invalid_ranges checkField_coolant checkDirect_coolant
    permittedInterval_coolant).2.2 111 (by decide) (by decide)
  exact covers.mpr ⟨⟨-4, -1⟩, by decide +kernel, by decide +kernel⟩

end AccessoryController.VehicleProfiles
