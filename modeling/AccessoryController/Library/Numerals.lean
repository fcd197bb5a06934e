import Mathlib.Data.List.TakeWhile
import Mathlib.Data.Nat.Digits.Defs

/-!
# Unsigned numerals

A numeral is a nonempty run of digits of its base, leading zeros included and without a sign or a
prefix. The standard conversion reads the longest run at the front of a text and reports what is
left; a text of which nothing is left is a numeral, and every number has one.

## Main definitions

* `Numerals.IsNumeral`: the text is a numeral of the number
* `Numerals.fromChars`: the conversion of the front of a text
* `Numerals.print`: the shortest numeral

## Main results

* `fromChars_eq_ok_iff`: what is converted to its end is a numeral that the type can hold
* `isNumeral_print`: printing
-/

namespace Numerals

/-- The place of a character among the digits: the ten decimal digits, then the letters in either
case, and no other character. -/
def place (c : UInt8) : ℕ :=
  if 48 ≤ c.toNat ∧ c.toNat ≤ 57 then c.toNat - 48
  else if 97 ≤ c.toNat ∧ c.toNat ≤ 122 then c.toNat - 87
  else if 65 ≤ c.toNat ∧ c.toNat ≤ 90 then c.toNat - 55
  else 36

/-- The value of a digit, in a base of at most 36. -/
def digit? (base : ℕ) (c : UInt8) : Option ℕ :=
  if place c < base then some (place c) else none

/-- The number that digits stand for, the most significant first. -/
def value (base : ℕ) (digits : List ℕ) : ℕ := digits.foldl (fun n d => n * base + d) 0

/-- The text is a numeral of `n`. -/
def IsNumeral (base : ℕ) (text : List UInt8) (n : ℕ) : Prop :=
  ∃ digits, digits ≠ [] ∧ text.map (digit? base) = digits.map some ∧ value base digits = n

inductive Errc
  | invalidArgument | resultOutOfRange
  deriving DecidableEq, Repr

/-- The conversion of the front of a text to an unsigned type of `width` bits, with what it leaves
unread. -/
def fromChars (width base : ℕ) (text : List UInt8) : Except Errc ℕ × List UInt8 :=
  let front := text.takeWhile fun c => (digit? base c).isSome
  let digits := front.filterMap (digit? base)
  if digits = [] then (.error .invalidArgument, text)
  else
    let rest := text.dropWhile fun c => (digit? base c).isSome
    if value base digits < 2 ^ width then (.ok (value base digits), rest)
    else (.error .resultOutOfRange, rest)

/-! ### Reading -/

variable {base : ℕ} {text : List UInt8}

/-- A numeral has nothing but digits. -/
theorem IsNumeral.isSome {n : ℕ} (h : IsNumeral base text n) {c : UInt8} (hc : c ∈ text) :
    (digit? base c).isSome := by
  obtain ⟨digits, -, spelled, -⟩ := h
  have mem : digit? base c ∈ digits.map some := by
    rw [← spelled]
    exact List.mem_map_of_mem hc
  obtain ⟨d, -, hd⟩ := List.mem_map.mp mem
  rw [← hd]
  rfl

theorem IsNumeral.ne_nil {n : ℕ} (h : IsNumeral base text n) : text ≠ [] := by
  rintro rfl
  obtain ⟨digits, some_digit, spelled, -⟩ := h
  exact some_digit (List.map_eq_nil_iff.mp spelled.symm)

/-- A run of digits spells the digits that it has. -/
theorem map_digit?_eq (digits : ∀ c ∈ text, (digit? base c).isSome) :
    text.map (digit? base) = (text.filterMap (digit? base)).map some := by
  induction text with
  | nil => rfl
  | cons c text ih =>
    obtain ⟨first, others⟩ := List.forall_mem_cons.mp digits
    obtain ⟨d, hd⟩ := Option.isSome_iff_exists.mp first
    rw [List.map_cons, List.filterMap_cons_some hd, List.map_cons, ih others, hd]

/-- The digits of a numeral are those that are read. -/
theorem filterMap_digit?_eq {digits : List ℕ} (spelled : text.map (digit? base) = digits.map some) :
    text.filterMap (digit? base) = digits := by
  have read := congrArg (List.filterMap id) spelled
  rw [List.filterMap_map, List.filterMap_map] at read
  exact read.trans List.filterMap_some

/-- **A conversion that reads its text to the end** found a numeral of a number that the type can
hold, and finds every such numeral. -/
theorem fromChars_eq_ok_iff {width : ℕ} {n : ℕ} :
    fromChars width base text = (.ok n, []) ↔ IsNumeral base text n ∧ n < 2 ^ width := by
  have split := List.takeWhile_append_dropWhile (p := fun c => (digit? base c).isSome) (l := text)
  constructor
  · intro converted
    unfold fromChars at converted
    dsimp only at converted
    split at converted
    · cases converted
    next some_digit =>
      split at converted
      next small =>
        obtain ⟨number, all⟩ := Prod.mk.inj converted
        obtain rfl := Except.ok.inj number
        rw [all, List.append_nil] at split
        rw [split] at some_digit small ⊢
        have digits : ∀ c ∈ text, (digit? base c).isSome := by
          rw [← split]
          exact fun c => List.mem_takeWhile_imp (p := fun c => (digit? base c).isSome)
        exact ⟨⟨_, some_digit, map_digit?_eq digits, rfl⟩, small⟩
      · cases converted
  · rintro ⟨numeral, small⟩
    have run : text.takeWhile (fun c => (digit? base c).isSome) = text :=
      List.takeWhile_eq_self_iff.mpr fun c hc => numeral.isSome hc
    obtain ⟨digits, some_digit, spelled, rfl⟩ := numeral
    have rest : text.dropWhile (fun c => (digit? base c).isSome) = [] := by
      rw [run] at split
      exact List.append_right_eq_self.mp split
    unfold fromChars
    dsimp only
    rw [run, filterMap_digit?_eq spelled, if_neg some_digit, if_pos small, rest]

/-! ### Printing -/

/-- The character of a digit, letters in upper case. -/
def digitChar (d : ℕ) : UInt8 := if d < 10 then UInt8.ofNat (48 + d) else UInt8.ofNat (55 + d)

/-- The shortest numeral of a number. -/
def print (base n : ℕ) : List UInt8 :=
  if n = 0 then [digitChar 0] else (base.digits n).reverse.map digitChar

theorem digit?_digitChar {d : ℕ} (small : d < base) (letters : base ≤ 36) :
    digit? base (digitChar d) = some d := by
  have place : place (digitChar d) = d := by
    unfold digitChar
    split
    next decimal =>
      have code : (UInt8.ofNat (48 + d)).toNat = 48 + d := by rw [UInt8.toNat_ofNat']; omega
      rw [Numerals.place, code, if_pos ⟨by omega, by omega⟩]
      omega
    next letter =>
      have code : (UInt8.ofNat (55 + d)).toNat = 55 + d := by rw [UInt8.toNat_ofNat']; omega
      rw [Numerals.place, code, if_neg (by omega), if_neg (by omega),
        if_pos ⟨by omega, by omega⟩]
      omega
  rw [digit?, place, if_pos small]

/-- Digits, printed one by one, are a numeral. -/
theorem isNumeral_map (letters : base ≤ 36) {digits : List ℕ} (small : ∀ d ∈ digits, d < base)
    (some_digit : digits ≠ []) : IsNumeral base (digits.map digitChar) (value base digits) := by
  refine ⟨digits, some_digit, ?_, rfl⟩
  rw [List.map_map]
  exact List.map_congr_left fun d hd => digit?_digitChar (small d hd) letters

/-- **Every number is printed** as a numeral of it. -/
theorem isNumeral_print (positional : 2 ≤ base) (letters : base ≤ 36) (n : ℕ) :
    IsNumeral base (print base n) n := by
  unfold print
  split
  next zero =>
    subst zero
    have small : ∀ d ∈ [0], d < base := fun d hd => by
      rw [List.mem_singleton.mp hd]
      omega
    simpa [value] using isNumeral_map letters small (List.cons_ne_nil 0 [])
  next positive =>
    have printed : value base (base.digits n).reverse = n := by
      rw [value, List.foldl_reverse]
      refine Eq.trans ?_ (Nat.ofDigits_digits base n)
      rw [Nat.ofDigits_eq_foldr]
      simp only [Nat.cast_id, Nat.mul_comm, Nat.add_comm]
    have numeral := @isNumeral_map base letters (base.digits n).reverse
      (fun d hd => Nat.digits_lt_base positional (List.mem_reverse.mp hd))
      (List.reverse_ne_nil_iff.mpr (Nat.digits_ne_nil_iff_ne_zero.mpr positive))
    rwa [printed] at numeral

end Numerals
