import Mathlib.Data.List.TakeWhile
import Mathlib.Data.Nat.Digits.Lemmas
import AccessoryController.ControllerConfig.Persisted.CJson

/-!
# Integers as text

The decimal text of an integer is a number token, and is read back as the integer. Of all texts
only the integer literals are read as a whole.

## Main definitions

* `IsIntegerLiteral`: an optional sign and digits, with their value

## Main results

* `isNumber_integerText`: the text is a number token
* `fromChars_integerText`: the text is read back
* `fromChars_eq_some_iff`: what is read as a whole
-/

open AccessoryController.ControllerConfig (Bytes)

namespace AccessoryController.Persisted

theorem isDigit_ofNat {d : ℕ} (h : d < 10) : Json.isDigit (UInt8.ofNat (48 + d)) = true := by
  have hall : ∀ d < 10, Json.isDigit (UInt8.ofNat (48 + d)) = true := by decide
  exact hall d h

theorem digitValue_ofNat {d : ℕ} (h : d < 10) : digitValue (UInt8.ofNat (48 + d)) = d := by
  have hall : ∀ d < 10, digitValue (UInt8.ofNat (48 + d)) = d := by decide
  exact hall d h

theorem digits_naturalText (n : ℕ) : Json.Digits (naturalText n) := by
  unfold naturalText
  split
  · exact ⟨by simp, List.all_eq_true.mp rfl⟩
  · rename_i hn
    refine ⟨?_, fun c hc => ?_⟩
    · rw [Ne, List.map_eq_nil_iff, List.reverse_eq_nil_iff]
      exact Nat.digits_ne_nil_iff_ne_zero.mpr hn
    · obtain ⟨d, hd, rfl⟩ := List.mem_map.mp hc
      exact isDigit_ofNat (Nat.digits_lt_base (by decide) (List.mem_reverse.mp hd))

/-- The digits of a text are its number. -/
theorem ofDigits_naturalText (n : ℕ) :
    Nat.ofDigits 10 ((naturalText n).reverse.map digitValue) = n := by
  unfold naturalText
  split
  · rename_i hn
    subst hn
    rfl
  · have hvalues : (Nat.digits 10 n).map (digitValue ∘ fun d => UInt8.ofNat (48 + d)) =
        Nat.digits 10 n := by
      conv_rhs => rw [← List.map_id (Nat.digits 10 n)]
      refine List.map_congr_left fun d hd => ?_
      exact digitValue_ofNat (Nat.digits_lt_base (by decide) hd)
    rw [← List.map_reverse, List.reverse_reverse, List.map_map, hvalues, Nat.ofDigits_digits]

/-- No text but that of zero starts with a zero. -/
theorem naturalText_head (n : ℕ) : (naturalText n).head? = some 48 → naturalText n = [48] := by
  intro hhead
  unfold naturalText at hhead ⊢
  split at hhead
  · rename_i hn
    rw [if_pos hn]
  · rename_i hn
    have hne := Nat.digits_ne_nil_iff_ne_zero (b := 10).mpr hn
    rw [List.head?_map, List.head?_reverse, List.getLast?_eq_some_getLast hne,
      Option.map_some] at hhead
    have hlast := Nat.getLast_digit_ne_zero 10 hn
    have hlt : (Nat.digits 10 n).getLast hne < 10 :=
      Nat.digits_lt_base (by decide) (List.getLast_mem hne)
    have hall : ∀ d < 10, UInt8.ofNat (48 + d) = 48 → d = 0 := by decide
    exact absurd (hall _ hlt (Option.some.inj hhead)) hlast

/-- The text of an integer is a number token. -/
theorem isNumber_integerText (n : ℤ) : Json.IsNumber (integerText n) := by
  have h := Json.IsNumber.mk (if n < 0 then [45] else []) (naturalText n.natAbs) [] []
    (by split <;> simp) (digits_naturalText _) (naturalText_head _) (.inl rfl) (.inl rfl)
  rwa [List.append_nil, List.append_nil] at h

/-- **An integer** of 64 bits is read back from its text. -/
theorem fromChars_integerText {n : ℤ} (hlow : -2 ^ 63 ≤ n) (hhigh : n < 2 ^ 63) :
    fromChars (integerText n) = some (n, []) := by
  obtain ⟨hne, hdigits⟩ := digits_naturalText n.natAbs
  have htake : (naturalText n.natAbs).takeWhile Json.isDigit = naturalText n.natAbs :=
    List.takeWhile_eq_self_iff.mpr hdigits
  have hdrop : (naturalText n.natAbs).dropWhile Json.isDigit = [] :=
    List.dropWhile_eq_nil_iff.mpr hdigits
  have hvalue := ofDigits_naturalText n.natAbs
  by_cases hneg : n < 0
  · have htext : integerText n = 45 :: naturalText n.natAbs := by
      rw [integerText, if_pos hneg]
      rfl
    have hmagnitude : -(n.natAbs : ℤ) = n := by
      omega
    simp only [fromChars, htext, List.head?_cons, if_true, List.tail_cons, htake, hdrop, hne,
      if_false, hvalue, hmagnitude, hlow, hhigh, and_self]
  · have htext : integerText n = naturalText n.natAbs := by
      rw [integerText, if_neg hneg]
      rfl
    have hhead : (naturalText n.natAbs).head? ≠ some 45 := by
      intro h
      have := hdigits 45 (List.mem_of_mem_head? h)
      exact absurd this (by decide)
    have hmagnitude : (n.natAbs : ℤ) = n := by
      omega
    simp only [fromChars, htext, hhead, if_false, if_true, htake, hdrop, hne, hvalue, hmagnitude,
      hlow, hhigh, and_self]

/-! ### Literals -/

/-- The value of a row of digits. -/
def decimalValue (digits : Bytes) : ℕ := Nat.ofDigits 10 (digits.reverse.map digitValue)

/-- An integer literal and its value. -/
inductive IsIntegerLiteral : Bytes → ℤ → Prop
  | unsigned {digits : Bytes} (h : Json.Digits digits) :
      IsIntegerLiteral digits (decimalValue digits)
  | negative {digits : Bytes} (h : Json.Digits digits) :
      IsIntegerLiteral (45 :: digits) (-decimalValue digits)

/-- The digits at the front of a text, when nothing else may follow them. -/
theorem readDigits_iff {body : Bytes} {value : ℕ → ℤ} {n : ℤ} :
    (if body.takeWhile Json.isDigit = [] then none
      else if -2 ^ 63 ≤ value (decimalValue (body.takeWhile Json.isDigit)) ∧
          value (decimalValue (body.takeWhile Json.isDigit)) < 2 ^ 63 then
        some (value (decimalValue (body.takeWhile Json.isDigit)), body.dropWhile Json.isDigit)
      else none) = some (n, []) ↔
      Json.Digits body ∧ n = value (decimalValue body) ∧ -2 ^ 63 ≤ n ∧ n < 2 ^ 63 := by
  by_cases hall : ∀ c ∈ body, Json.isDigit c = true
  · rw [List.takeWhile_eq_self_iff.mpr hall, List.dropWhile_eq_nil_iff.mpr hall]
    constructor
    · intro h
      split_ifs at h with hempty hbounds
      obtain ⟨rfl, -⟩ := Prod.mk.inj (Option.some.inj h)
      exact ⟨⟨hempty, hall⟩, rfl, hbounds⟩
    · rintro ⟨⟨hempty, -⟩, rfl, hbounds⟩
      rw [if_neg hempty, if_pos hbounds]
  · -- something follows the digits
    have hrest : body.dropWhile Json.isDigit ≠ [] := fun h => hall (List.dropWhile_eq_nil_iff.mp h)
    constructor
    · intro h
      split_ifs at h
      exact absurd (Prod.mk.inj (Option.some.inj h)).2 hrest
    · exact fun h => absurd h.1.2 hall

/-- **A text is read as a whole** exactly when it is an integer literal of 64 bits. -/
theorem fromChars_eq_some_iff {text : Bytes} {n : ℤ} :
    fromChars text = some (n, []) ↔ IsIntegerLiteral text n ∧ -2 ^ 63 ≤ n ∧ n < 2 ^ 63 := by
  have hdigit : Json.isDigit 45 = false := by decide
  by_cases hsign : text.head? = some 45
  · obtain ⟨body, rfl⟩ : ∃ body, text = 45 :: body := List.head?_eq_some_iff.mp hsign
    have hread := @readDigits_iff body (fun m => -(m : ℤ)) n
    refine hread.trans ⟨?_, ?_⟩
    · rintro ⟨hdigits, rfl, hbounds⟩
      exact ⟨.negative hdigits, hbounds⟩
    · rintro ⟨hliteral, hbounds⟩
      cases hliteral with
      | unsigned hdigits =>
        rw [hdigits.2 45 List.mem_cons_self] at hdigit
        cases hdigit
      | negative hdigits => exact ⟨hdigits, rfl, hbounds⟩
  · have hread := @readDigits_iff text (fun m => (m : ℤ)) n
    simp only [fromChars, hsign, if_false]
    refine hread.trans ⟨?_, ?_⟩
    · rintro ⟨hdigits, rfl, hbounds⟩
      exact ⟨.unsigned hdigits, hbounds⟩
    · rintro ⟨hliteral, hbounds⟩
      cases hliteral with
      | unsigned hdigits => exact ⟨hdigits, rfl, hbounds⟩
      | negative => exact absurd rfl hsign

end AccessoryController.Persisted
