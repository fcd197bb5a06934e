import AccessoryController.Library.JsonReader
import AccessoryController.Library.NineDigits
import AccessoryController.ControllerConfig.Persisted.DecimalText

/-!
# A reference library

A parser and conversions with the documented behaviour. Numbers are printed with nine significant
digits and read exactly, and the nodes of a tree lie where the way to them says.

## Main definitions

* `referenceLibrary`: the library

## Main results

* `referenceLibrary_faithful`: its behaviour
-/

open AccessoryController.ControllerConfig (Bytes)

namespace AccessoryController.Persisted

open scoped Json
open Binary32
open Binary32 (decimalDigits decimalExponent magnitudeOf infinityBits)

/-! ### Numbers -/

/-- A number with nine significant digits and an exponent. -/
def nineDigits (x : Binary32) : Bytes :=
  (if x.negative then [45] else []) ++
    if x.magnitude = 0 then [48]
    else naturalText (decimalDigits x.magnitude) ++ 101 :: integerText (decimalExponent x.magnitude)

/-- The exponent after its letter. -/
def exponentValue (text : Bytes) : ℤ :=
  let digits := if text.tail.head? = some 43 then text.tail.tail else text.tail
  ((fromChars digits).getD (0, [])).1

/-- The exact value of a number token without its sign. -/
def unsignedValue (text : Bytes) : ℚ :=
  let whole := text.takeWhile Json.isDigit
  let later := text.dropWhile Json.isDigit
  let fraction := if later.head? = some 46 then later.tail.takeWhile Json.isDigit else []
  let later := if later.head? = some 46 then later.tail.dropWhile Json.isDigit else later
  let digits : ℕ := Nat.ofDigits 10 ((whole ++ fraction).reverse.map digitValue)
  digits * 10 ^ (exponentValue later - fraction.length)

/-- The exact value of a number token. -/
def tokenValue (token : Bytes) : Double :=
  if token.head? = some 45 then .finite true (unsignedValue token.tail)
  else .finite false (unsignedValue token)

/-- The text after a whole number: nothing, or an exponent. -/
def exponentText : Option ℤ → Bytes
  | none => []
  | some exponent => 101 :: integerText exponent

variable {exponent : Option ℤ} {x : Binary32}

theorem exponentValue_exponentText (h : ∀ e ∈ exponent, -2 ^ 63 ≤ e ∧ e < 2 ^ 63) :
    exponentValue (exponentText exponent) = exponent.getD 0 := by
  cases exponent with
  | none => rfl
  | some e =>
    obtain ⟨hlow, hhigh⟩ := h e rfl
    obtain ⟨c, rest, htext, hstart⟩ := (isNumber_integerText e).exists_cons
    have hplus : (integerText e).head? ≠ some 43 := by
      rw [htext, List.head?_cons]
      intro hc
      rw [Option.some.inj hc] at hstart
      exact absurd hstart (by decide)
    simp only [exponentText, exponentValue, List.tail_cons, hplus, if_false,
      fromChars_integerText hlow hhigh]
    rfl

theorem unsignedValue_whole (n : ℕ) (h : ∀ e ∈ exponent, -2 ^ 63 ≤ e ∧ e < 2 ^ 63) :
    unsignedValue (naturalText n ++ exponentText exponent) = n * 10 ^ (exponent.getD 0) := by
  obtain ⟨-, hdigits⟩ := digits_naturalText n
  have htake : (naturalText n ++ exponentText exponent).takeWhile Json.isDigit = naturalText n := by
    rw [List.takeWhile_append_of_pos hdigits]
    cases exponent <;> simp [exponentText, Json.isDigit]
  have hdrop : (naturalText n ++ exponentText exponent).dropWhile Json.isDigit =
      exponentText exponent := by
    rw [List.dropWhile_append_of_pos hdigits]
    cases exponent <;> simp [exponentText, Json.isDigit]
  have hpoint : (exponentText exponent).head? ≠ some 46 := by
    cases exponent <;> simp [exponentText]
  simp only [unsignedValue, htake, hdrop, if_neg hpoint, List.append_nil, ofDigits_naturalText,
    exponentValue_exponentText h, List.length_nil, Nat.cast_zero, sub_zero]

/-- **A whole number with a sign and an exponent** is read exactly. -/
theorem tokenValue_whole (negative : Bool) (n : ℕ) (h : ∀ e ∈ exponent, -2 ^ 63 ≤ e ∧ e < 2 ^ 63) :
    tokenValue ((if negative then [45] else []) ++ (naturalText n ++ exponentText exponent)) =
      .finite negative (n * 10 ^ (exponent.getD 0)) := by
  obtain ⟨hne, hdigits⟩ := digits_naturalText n
  have hvalue := unsignedValue_whole n h
  cases negative with
  | true =>
    rw [← hvalue]
    exact if_pos rfl
  | false =>
    have hhead : (naturalText n ++ exponentText exponent).head? ≠ some 45 := by
      obtain ⟨c, rest, hcons⟩ := List.exists_cons_of_ne_nil hne
      rw [hcons, List.cons_append, List.head?_cons]
      intro hc
      have hdigit := hdigits c (by rw [hcons]; exact List.mem_cons_self)
      rw [Option.some.inj hc] at hdigit
      exact absurd hdigit (by decide)
    rw [← hvalue]
    exact if_neg hhead

/-- An integer is read exactly. -/
theorem tokenValue_integerText (n : ℤ) : tokenValue (integerText n) = .ofInt n := by
  have h := @tokenValue_whole none (decide (n < 0)) n.natAbs fun e he => by cases he
  simp only [exponentText, List.append_nil, Option.getD_none, zpow_zero, mul_one,
    decide_eq_true_eq] at h
  exact h

/-! ### Nine digits -/

theorem magnitude_eq (x : Binary32) : x.magnitude = magnitudeOf (x.bits.toNat % 2 ^ 31) := by
  have hexp : x.bits.toNat % 2 ^ 31 / 2 ^ 23 = x.exponent := by
    unfold exponent
    omega
  have hfrac : x.bits.toNat % 2 ^ 31 % 2 ^ 23 = x.fraction := by
    unfold fraction
    omega
  rw [magnitudeOf, hexp, hfrac]
  rfl

theorem signed_negative (x : Binary32) :
    signed x.negative (x.bits.toNat % 2 ^ 31) = x := by
  have hlt := x.bits.toNat_lt
  have hsum : x.bits.toNat % 2 ^ 31 + (if x.negative = true then 2 ^ 31 else 0) =
      x.bits.toNat := by
    simp only [negative, decide_eq_true_eq]
    split <;> omega
  rw [signed, hsum, UInt32.ofNat_toNat]

theorem bits_lt_infinityBits (h : x.isFinite = true) : x.bits.toNat % 2 ^ 31 < infinityBits := by
  have hexp : x.exponent < 255 := by simpa [isFinite] using h
  unfold exponent at hexp
  unfold infinityBits
  omega

theorem magnitude_lt (h : x.isFinite = true) : x.magnitude < 2 ^ 128 * 2 ^ 149 := by
  have hmono := magnitudeOf_mono (bits_lt_infinityBits h).le
  rw [← magnitude_eq] at hmono
  have hfraction : x.fraction < 2 ^ 23 := Nat.mod_lt _ (Nat.two_pow_pos 23)
  have hexp : x.exponent < 255 := by simpa [isFinite] using h
  unfold magnitude
  split
  · exact lt_trans hfraction (by decide)
  · calc
      (2 ^ 23 + x.fraction) * 2 ^ (x.exponent - 1)
          < 2 ^ 24 * 2 ^ (x.exponent - 1) :=
        Nat.mul_lt_mul_of_pos_right (by omega) (Nat.two_pow_pos _)
      _ ≤ 2 ^ 24 * 2 ^ 253 := Nat.mul_le_mul_left _ (Nat.pow_le_pow_right Nat.two_pos (by omega))
      _ = 2 ^ 128 * 2 ^ 149 := by decide

theorem nineDigits_eq (x : Binary32) : nineDigits x = (if x.negative then [45] else []) ++
    if x.magnitude = 0 then naturalText 0 ++ exponentText none
    else naturalText (decimalDigits x.magnitude) ++
      exponentText (some (decimalExponent x.magnitude)) := rfl

theorem length_naturalText_le {n k : ℕ} (hk : 0 < k) (h : n < 10 ^ k) :
    (naturalText n).length ≤ k := by
  unfold naturalText
  split
  · exact hk
  · rw [List.length_map, List.length_reverse]
    exact (Nat.digits_length_le_iff (by decide) n).mpr h

theorem isNumber_nineDigits (x : Binary32) : Json.IsNumber (nineDigits x) := by
  have hsign : (if x.negative = true then ([45] : Bytes) else []) = [] ∨
      (if x.negative = true then ([45] : Bytes) else []) = [45] := by
    split
    · exact .inr rfl
    · exact .inl rfl
  rw [nineDigits]
  by_cases hzero : x.magnitude = 0
  · rw [if_pos hzero]
    have h := Json.IsNumber.mk _ [48] [] [] hsign ⟨by decide, by decide⟩ (fun _ => rfl) (.inl rfl)
      (.inl rfl)
    rwa [List.append_nil, List.append_nil] at h
  · rw [if_neg hzero]
    have hexponent : Json.IsExponent (101 :: integerText (decimalExponent x.magnitude)) := by
      refine .inr ⟨101, if decimalExponent x.magnitude < 0 then [45] else [], _, by decide, ?_,
        digits_naturalText _, rfl⟩
      split <;> decide
    have h := Json.IsNumber.mk _ _ [] _ hsign (digits_naturalText (decimalDigits x.magnitude))
      (naturalText_head _) (.inl rfl) hexponent
    rwa [List.append_nil, List.append_assoc] at h

theorem length_nineDigits_le (h : x.isFinite = true) : (nineDigits x).length ≤ 16 := by
  have hsign : (if x.negative = true then ([45] : Bytes) else []).length ≤ 1 := by
    split <;> decide
  rw [nineDigits, List.length_append]
  by_cases hzero : x.magnitude = 0
  · rw [if_pos hzero]
    simp only [List.length_cons, List.length_nil]
    omega
  · rw [if_neg hzero]
    have hpos := Nat.pos_of_ne_zero hzero
    obtain ⟨hlow, hhigh⟩ := decimalExponent_bounds hpos (magnitude_lt h)
    have hdigits : (naturalText (decimalDigits x.magnitude)).length ≤ 10 :=
      length_naturalText_le (by decide)
        (lt_of_le_of_lt decimalDigits_le (by decide))
    have habs : (naturalText (decimalExponent x.magnitude).natAbs).length ≤ 2 :=
      length_naturalText_le (by decide) (by omega)
    have hexponent : (integerText (decimalExponent x.magnitude)).length ≤ 3 := by
      rw [integerText, List.length_append]
      split
      · simp only [List.length_cons, List.length_nil]
        omega
      · simp only [List.length_nil]
        omega
    simp only [List.length_append, List.length_cons]
    omega

/-- **A finite number** is read back from its nine digits. -/
theorem tokenValue_nineDigits (h : x.isFinite = true) :
    ∃ value, tokenValue (nineDigits x) = .finite x.negative value ∧
      roundBits (value.num.toNat * 2 ^ 149) value.den = x.bits.toNat % 2 ^ 31 := by
  rw [nineDigits_eq]
  by_cases hzero : x.magnitude = 0
  · rw [if_pos hzero]
    have hnone : ∀ e ∈ (none : Option ℤ), -2 ^ 63 ≤ e ∧ e < 2 ^ 63 := fun e he => by cases he
    refine ⟨_, tokenValue_whole x.negative 0 hnone, ?_⟩
    have hbits := roundBits_magnitudeOf (bits_lt_infinityBits h).le
    rw [← magnitude_eq, hzero] at hbits
    rw [← hbits]
    simp
  · rw [if_neg hzero]
    have hpos := Nat.pos_of_ne_zero hzero
    obtain ⟨hlow, hhigh⟩ := decimalExponent_bounds hpos (magnitude_lt h)
    have hbounds : ∀ e ∈ some (decimalExponent x.magnitude), -2 ^ 63 ≤ e ∧ e < 2 ^ 63 := by
      intro e he
      obtain rfl := Option.some.inj he
      omega
    refine ⟨_, tokenValue_whole x.negative _ hbounds, ?_⟩
    exact roundBits_decimal hpos (bits_lt_infinityBits h) (magnitude_eq x).symm rfl

/-! ### The library -/

/-- The number of a way, so that different ways have different numbers. -/
def wayNumber : List Bool → ℕ
  | [] => 0
  | false :: way => 2 * wayNumber way + 1
  | true :: way => 2 * wayNumber way + 2

theorem wayNumber_injective : Function.Injective wayNumber := by
  intro way
  induction way with
  | nil =>
    rintro (_ | ⟨_ | _, other⟩) h
    · rfl
    · simp only [wayNumber] at h
      omega
    · simp only [wayNumber] at h
      omega
  | cons step way ih =>
    rintro (_ | ⟨step', other⟩) h
    · cases step <;> simp [wayNumber] at h
    · cases step <;> cases step' <;> simp only [wayNumber] at h
      · rw [ih (by omega : wayNumber way = wayNumber other)]
      · omega
      · omega
      · rw [ih (by omega : wayNumber way = wayNumber other)]

/-- A JSON reader with exact numbers. -/
def referenceLibrary : ExternalLibrary where
  parseWithLength text :=
    match Json.read text with
    | some (kind, inner) =>
      .parsed (.ofItems tokenValue wayNumber (.cons [] kind inner .nil)) text.length
    | none => .malformed
  formatFloat := nineDigits
  strtod := tokenValue

/-- **The reference library** behaves as documented. -/
theorem referenceLibrary_faithful : referenceLibrary.Faithful where
  json kind inner h _ := by
    refine ⟨wayNumber, wayNumber_injective, ?_⟩
    simp only [referenceLibrary, Json.read_text h]
  floats x h := by
    obtain ⟨value, hvalue, hbits⟩ := tokenValue_nineDigits h
    refine ⟨isNumber_nineDigits x, length_nineDigits_le h, ?_, ?_⟩
    · change (tokenValue (nineDigits x)).isFinite = true
      rw [hvalue]
      rfl
    · change (tokenValue (nineDigits x)).toBinary32 = x
      rw [hvalue, Double.toBinary32, hbits, signed_negative]
  integers n _ := tokenValue_integerText n

end AccessoryController.Persisted
