import Mathlib.Tactic.FieldSimp
import AccessoryController.VehicleProfiles.DbcLexer

/-!
# Numbers in DBC sources

A number is spelled with an optional sign, digits with an optional point among or around them, and
an optional exponent. The pattern of the lexer takes the longest number at the front of a text, and
the value that it makes of a spelling is the rational number that the spelling denotes.

## Main definitions

* `Numeral`: a number as it is spelled
* `Numeral.value`: the rational number that it denotes
* `Numeral.WithinBounds`: the bounds of the lexer on its digits and its exponent

## Main results

* `numeral_of_matchDecimal`, `matchDecimal_spelling`: the pattern takes the longest number
* `parseDecimal_spelling`: the value of a spelling
-/

namespace AccessoryController.VehicleProfiles

open Lexing Numerals

/-! ### Spellings -/

/-- The exponent of a number. -/
structure Exponent where
  mark : Char
  sign : Option Char
  digits : List Char
  mark_cases : mark = 'e' ∨ mark = 'E'
  sign_valid : ∀ c ∈ sign, isSign c = true
  some_digit : digits ≠ []
  all_digits : ∀ c ∈ digits, c.isDigit = true

/-- A number as it is spelled; `fraction` is what stands behind the point. -/
structure Numeral where
  sign : Option Char
  whole : List Char
  fraction : Option (List Char)
  exponent : Option Exponent
  sign_valid : ∀ c ∈ sign, isSign c = true
  some_digit : whole ++ fraction.getD [] ≠ []
  all_digits : ∀ c ∈ whole ++ fraction.getD [], c.isDigit = true

def Exponent.spelling (e : Exponent) : List Char := e.mark :: (e.sign.toList ++ e.digits)

/-- A point with what stands behind it. -/
def pointed : Option (List Char) → List Char
  | none => []
  | some digits => '.' :: digits

/-- The number that a sign stands for. -/
def signValue (sign : Option Char) : ℤ := if sign = some '-' then -1 else 1

namespace Numeral

variable (n : Numeral)

def mantissa : List Char := n.whole ++ pointed n.fraction

def exponentText : List Char := (n.exponent.map Exponent.spelling).getD []

def spelling : List Char := n.sign.toList ++ n.mantissa ++ n.exponentText

/-- The digits around the point. -/
def digits : List Char := n.whole ++ n.fraction.getD []

def exponentDigits : List Char := (n.exponent.map Exponent.digits).getD []

def exponentValue : ℤ :=
  (n.exponent.map fun e => signValue e.sign * (digitsValue e.digits : ℤ)).getD 0

/-- The rational number that the spelling denotes. -/
def value : ℚ :=
  signValue n.sign * (digitsValue n.whole +
    digitsValue (n.fraction.getD []) / (10 : ℚ) ^ (n.fraction.getD []).length) *
      (10 : ℚ) ^ n.exponentValue

/-- A number without a point and without an exponent. -/
def IsInteger : Prop := n.fraction = none ∧ n.exponent = none

instance : Decidable n.IsInteger := inferInstanceAs (Decidable (_ ∧ n.exponent = none))

/-- The power of ten by which the digits count. -/
def scale : ℤ := n.exponentValue - (n.fraction.getD []).length

/-- The bounds on the digits, the digits of the exponent and the power of ten; zeros in front do
not count. -/
structure WithinBounds : Prop where
  digits : (n.digits.dropWhile (· = '0')).length ≤ kMaxMantissaDigits
  exponent : (n.exponentDigits.dropWhile (· = '0')).length ≤ 4
  scale : n.scale.natAbs ≤ kMaxExponent

end Numeral

/-! ### Characters of numbers -/

variable {c : Char} {rest : List Char} {sign : Option Char} {whole digits : List Char}
  (text : List Char) (n : Numeral)

theorem isSign_iff : isSign c = true ↔ c = '+' ∨ c = '-' := by
  simp [isSign]

theorem not_isSign_of_isDigit (digit : c.isDigit = true) : isSign c = false := by
  refine Bool.eq_false_iff.mpr fun sign => ?_
  rcases isSign_iff.mp sign with rfl | rfl
  · exact absurd digit (by decide)
  · exact absurd digit (by decide)

/-- A digit is none of the other characters that stand in numbers. -/
theorem ne_of_isDigit {d : Char} (digit : c.isDigit = true) (other : d.isDigit = false) :
    c ≠ d := by
  rintro rfl
  exact absurd (digit.symm.trans other) nofun

theorem matchSign_front (valid : ∀ c ∈ sign, isSign c = true)
    (stops : ∀ c ∈ rest.head?, isSign c = false) :
    matchSign (sign.toList ++ rest) = sign.toList := by
  cases sign with
  | none =>
    cases rest with
    | nil => rfl
    | cons c rest => exact if_neg (by rw [stops c rfl]; exact Bool.false_ne_true)
  | some c => exact if_pos (valid c rfl)

/-- What is matched as a sign is a sign at the front. -/
theorem matchSign_cases :
    ∃ (sign : Option Char) (rest : List Char), matchSign text = sign.toList ∧
      text = sign.toList ++ rest ∧ ∀ c ∈ sign, isSign c = true := by
  cases text with
  | nil => exact ⟨none, [], rfl, rfl, nofun⟩
  | cons c rest =>
    by_cases sign : isSign c = true
    · exact ⟨some c, rest, if_pos sign, rfl, fun _ same => Option.some.inj same ▸ sign⟩
    · exact ⟨none, c :: rest, if_neg sign, rfl, nofun⟩

/-- What is matched as digits is the run of digits at the front. -/
theorem matchDigits_cases :
    ∃ rest, text = matchDigits text ++ rest ∧ (∀ c ∈ matchDigits text, c.isDigit = true) ∧
      ∀ c ∈ rest.head?, c.isDigit = false := by
  refine ⟨text.dropWhile Char.isDigit, List.takeWhile_append_dropWhile.symm,
    fun c mem => List.mem_takeWhile_imp mem, fun c first => ?_⟩
  have stops := List.head?_dropWhile_not Char.isDigit text
  rw [Option.mem_def.mp first] at stops
  exact stops

/-! ### The pattern of a number -/

/-- Digits with a point behind them. -/
theorem matchMantissa_point (all : ∀ c ∈ whole, c.isDigit = true) (tail : List Char) :
    matchMantissa (whole ++ '.' :: tail) =
      if whole = [] ∧ matchDigits tail = [] then none
      else some (whole ++ '.' :: matchDigits tail) := by
  have matched : matchDigits (whole ++ '.' :: tail) = whole :=
    takeWhile_front all fun _ point => by cases point; rfl
  simp only [matchMantissa, matched, List.drop_left]

/-- Digits without a point behind them. -/
theorem matchMantissa_whole (all : ∀ c ∈ whole, c.isDigit = true)
    (stops : ∀ c ∈ rest.head?, c.isDigit = false) (no_point : ∀ tail, rest ≠ '.' :: tail) :
    matchMantissa (whole ++ rest) = if whole = [] then none else some whole := by
  have matched : matchDigits (whole ++ rest) = whole := takeWhile_front all stops
  simp only [matchMantissa, matched, List.drop_left]

/-- What is matched as a mantissa is one. -/
theorem matchMantissa_sound {text mantissa : List Char}
    (matched : matchMantissa text = some mantissa) :
    ∃ whole fraction rest, mantissa = whole ++ pointed fraction ∧ text = mantissa ++ rest ∧
      whole ++ fraction.getD [] ≠ [] ∧ ∀ c ∈ whole ++ fraction.getD [], c.isDigit = true := by
  obtain ⟨rest, split, all, stops⟩ := matchDigits_cases text
  obtain ⟨whole, digits⟩ : ∃ whole, matchDigits text = whole := ⟨_, rfl⟩
  rw [digits] at split all
  subst split
  by_cases point : ∃ tail, rest = '.' :: tail
  · obtain ⟨tail, rfl⟩ := point
    rw [matchMantissa_point all] at matched
    split at matched
    · cases matched
    · rename_i some_digit
      cases matched
      obtain ⟨after, split, all', -⟩ := matchDigits_cases tail
      refine ⟨whole, some (matchDigits tail), after, rfl, ?_, ?_, ?_⟩
      · rw [List.append_assoc, List.cons_append, ← split]
      · exact fun none_there => some_digit (List.append_eq_nil_iff.mp none_there)
      · exact fun c mem => (List.mem_append.mp mem).elim (all c) (all' c)
  · rw [matchMantissa_whole all stops (not_exists.mp point)] at matched
    split at matched
    · cases matched
    · rename_i some_digit
      cases matched
      refine ⟨mantissa, none, rest, (List.append_nil _).symm, rfl, ?_, ?_⟩
      · rwa [Option.getD_none, List.append_nil]
      · rwa [Option.getD_none, List.append_nil]

/-- Digits are matched with all digits behind them. -/
theorem matchMantissa_digits (some_digit : whole ≠ []) (all : ∀ c ∈ whole, c.isDigit = true)
    (rest : List Char) :
    ∃ mantissa, matchMantissa (whole ++ rest) = some mantissa ∧
      whole.length ≤ mantissa.length ∧
      ((∀ c ∈ rest.head?, c.isDigit = false ∧ c ≠ '.') → mantissa = whole) := by
  obtain ⟨tail, split, more, stops⟩ := matchDigits_cases rest
  have both : ∀ c ∈ whole ++ matchDigits rest, c.isDigit = true := fun c mem =>
    (List.mem_append.mp mem).elim (all c) (more c)
  have text : whole ++ rest = whole ++ matchDigits rest ++ tail := by
    rw [List.append_assoc, ← split]
  have nonempty : whole ++ matchDigits rest ≠ [] := fun none_there =>
    some_digit (List.append_eq_nil_iff.mp none_there).1
  -- where no digit follows, nothing is added
  have ends : (∀ c ∈ rest.head?, c.isDigit = false ∧ c ≠ '.') → matchDigits rest = [] := by
    intro stop
    cases digits : matchDigits rest with
    | nil => rfl
    | cons c _ =>
      have first : c ∈ rest.head? := by rw [split, digits]; rfl
      have digit := more c (by rw [digits]; exact List.mem_cons_self)
      exact absurd (digit.symm.trans (stop c first).1) nofun
  by_cases point : ∃ after, tail = '.' :: after
  · obtain ⟨after, rfl⟩ := point
    rw [text, matchMantissa_point both, if_neg fun none_there => nonempty none_there.1]
    refine ⟨_, rfl, by simp only [List.length_append]; omega, fun stop => ?_⟩
    rw [ends stop] at split
    exact absurd rfl (stop '.' (by rw [split]; rfl)).2
  · rw [text, matchMantissa_whole both stops (not_exists.mp point), if_neg nonempty]
    refine ⟨_, rfl, by simp only [List.length_append]; omega, fun stop => ?_⟩
    rw [ends stop, List.append_nil]

/-- A mantissa at the front is matched, or a longer one. -/
theorem matchMantissa_complete {fraction : Option (List Char)}
    (some_digit : whole ++ fraction.getD [] ≠ [])
    (all : ∀ c ∈ whole ++ fraction.getD [], c.isDigit = true) (rest : List Char) :
    ∃ mantissa, matchMantissa (whole ++ pointed fraction ++ rest) = some mantissa ∧
      (whole ++ pointed fraction).length ≤ mantissa.length ∧
      ((∀ c ∈ rest.head?, c.isDigit = false ∧ c ≠ '.') →
        mantissa = whole ++ pointed fraction) := by
  cases fraction with
  | none =>
    exact matchMantissa_digits some_digit all rest
  | some digits =>
    simp only [pointed, Option.getD_some] at some_digit all ⊢
    have digits_all : ∀ c ∈ digits, c.isDigit = true := fun c mem =>
      all c (List.mem_append_right _ mem)
    have longer : digits.length ≤ (matchDigits (digits ++ rest)).length :=
      length_le_takeWhile digits_all rest
    have there : ¬(whole = [] ∧ matchDigits (digits ++ rest) = []) := by
      rintro ⟨rfl, none_there⟩
      rw [none_there, List.length_nil, Nat.le_zero, List.length_eq_zero_iff] at longer
      exact some_digit longer
    rw [List.append_assoc, List.cons_append,
      matchMantissa_point fun c mem => all c (List.mem_append_left _ mem), if_neg there]
    refine ⟨_, rfl, ?_, fun stop => ?_⟩
    · simp only [List.length_append, List.length_cons]
      omega
    · rw [show matchDigits (digits ++ rest) = digits from
        takeWhile_front digits_all fun c first => (stop c first).1]

/-- What is matched as an exponent is one, or nothing. -/
theorem matchExponent_sound :
    ∃ (exponent : Option Exponent) (rest : List Char),
      matchExponent text = (exponent.map Exponent.spelling).getD [] ∧
        text = matchExponent text ++ rest := by
  cases text with
  | nil => exact ⟨none, [], rfl, rfl⟩
  | cons e rest =>
    obtain ⟨sign, after, matched, split, valid⟩ := matchSign_cases rest
    obtain ⟨tail, split', all, -⟩ := matchDigits_cases after
    have dropped : rest.drop (matchSign rest).length = after := by
      conv_lhs => rw [matched, split]
      exact List.drop_left
    by_cases there : (e = 'e' ∨ e = 'E') ∧ matchDigits after ≠ []
    · refine ⟨some ⟨e, sign, matchDigits after, there.1, valid, there.2, all⟩, tail, ?_, ?_⟩
      · rw [matchExponent, dropped, if_pos there, matched]
        rfl
      · rw [matchExponent, dropped, if_pos there, matched, List.cons_append, List.append_assoc,
          ← split', ← split]
    · refine ⟨none, e :: rest, ?_, ?_⟩
      · rw [matchExponent, dropped, if_neg there]
        rfl
      · rw [matchExponent, dropped, if_neg there]
        rfl

/-- An exponent at the front is matched, or a longer one. -/
theorem matchExponent_complete (exponent : Exponent) (rest : List Char) :
    exponent.spelling.length ≤ (matchExponent (exponent.spelling ++ rest)).length := by
  obtain ⟨mark, sign, digits, mark_cases, valid, some_digit, all⟩ := exponent
  have unsigned : ∀ c ∈ (digits ++ rest).head?, isSign c = false := by
    cases digits with
    | nil => exact absurd rfl some_digit
    | cons d _ =>
      rintro c ⟨⟩
      exact not_isSign_of_isDigit (all d List.mem_cons_self)
  have matched := matchSign_front valid unsigned
  have longer : digits.length ≤ (matchDigits (digits ++ rest)).length :=
    length_le_takeWhile all rest
  simp only [Exponent.spelling, List.cons_append, List.append_assoc, matchExponent, matched,
    List.drop_left]
  rw [if_pos ⟨mark_cases, fun none_there => some_digit
    (List.length_eq_zero_iff.mp (Nat.le_zero.mp (by rwa [none_there] at longer)))⟩]
  simp only [List.length_cons, List.length_append]
  omega

/-- **What is matched as a number is one.** -/
theorem numeral_of_matchDecimal {text raw : List Char} (matched : matchDecimal text = some raw) :
    ∃ (n : Numeral) (rest : List Char), n.spelling = raw ∧ text = raw ++ rest := by
  obtain ⟨sign, unsigned, sign_text, split, valid⟩ := matchSign_cases text
  have dropped : text.drop (matchSign text).length = unsigned := by
    conv_lhs => rw [sign_text, split]
    exact List.drop_left
  rw [matchDecimal, dropped, sign_text] at matched
  obtain ⟨mantissa, matched', whole⟩ := Option.map_eq_some_iff.mp matched
  obtain ⟨digits, fraction, rest, rfl, rfl, some_digit, all⟩ := matchMantissa_sound matched'
  rw [List.drop_left] at whole
  obtain ⟨exponent, after, exponent_text, split'⟩ := matchExponent_sound rest
  refine ⟨⟨sign, digits, fraction, exponent, valid, some_digit, all⟩, after, ?_, ?_⟩
  · rw [← whole, exponent_text]
    rfl
  · rw [split, ← whole, List.append_assoc _ (matchExponent rest), ← split']
    simp only [List.append_assoc]

/-- A number without its sign begins with a digit or a point. -/
theorem Numeral.mantissa_front :
    ∃ c rest, n.mantissa = c :: rest ∧ (c.isDigit = true ∨ c = '.') := by
  obtain ⟨sign, whole, fraction, exponent, valid, some_digit, all⟩ := n
  cases whole with
  | cons c whole =>
    exact ⟨c, whole ++ pointed fraction, rfl,
      .inl (all c (List.mem_append_left _ List.mem_cons_self))⟩
  | nil =>
    cases fraction with
    | none => exact absurd rfl some_digit
    | some digits => exact ⟨'.', digits, rfl, .inr rfl⟩

theorem Numeral.mantissa_unsigned (rest : List Char) :
    ∀ c ∈ (n.mantissa ++ rest).head?, isSign c = false := by
  obtain ⟨first, more, front, digit | rfl⟩ := n.mantissa_front
  · rw [front]
    rintro c ⟨⟩
    exact not_isSign_of_isDigit digit
  · rw [front]
    rintro c ⟨⟩
    rfl

/-- **A number at the front is matched, or a longer one.** -/
theorem matchDecimal_spelling (rest : List Char) :
    ∃ raw, matchDecimal (n.spelling ++ rest) = some raw ∧ n.spelling.length ≤ raw.length := by
  obtain ⟨mantissa, matched, longer, exact⟩ :=
    matchMantissa_complete n.some_digit n.all_digits (n.exponentText ++ rest)
  have signed := matchSign_front n.sign_valid (n.mantissa_unsigned (n.exponentText ++ rest))
  have text : n.spelling ++ rest = n.sign.toList ++ (n.mantissa ++ (n.exponentText ++ rest)) := by
    simp only [Numeral.spelling, List.append_assoc]
  rw [text, matchDecimal, signed, List.drop_left]
  simp only [Numeral.mantissa] at longer matched exact ⊢
  rw [matched]
  refine ⟨_, rfl, ?_⟩
  simp only [Numeral.spelling, Numeral.mantissa]
  cases exponent : n.exponent with
  | none =>
    simp only [Numeral.exponentText, exponent, Option.map_none, Option.getD_none,
      List.append_nil, List.length_append] at longer ⊢
    omega
  | some e =>
    have spelled : n.exponentText = e.spelling := by rw [Numeral.exponentText, exponent]; rfl
    -- the mark of the exponent ends the mantissa
    have ends : mantissa = n.whole ++ pointed n.fraction := by
      refine exact ?_
      rw [spelled]
      rintro c ⟨⟩
      rcases e.mark_cases with mark | mark
      · rw [mark]
        exact ⟨rfl, by decide⟩
      · rw [mark]
        exact ⟨rfl, by decide⟩
    have longest := matchExponent_complete e rest
    rw [ends, List.drop_left, spelled]
    simp only [List.length_append] at longest ⊢
    omega

/-- A spelling is matched to its end. -/
theorem matchDecimal_self : matchDecimal n.spelling = some n.spelling := by
  obtain ⟨raw, matched, longer⟩ := matchDecimal_spelling n []
  rw [List.append_nil] at matched
  obtain ⟨-, rest, -, split⟩ := numeral_of_matchDecimal matched
  have nothing : rest = [] := by
    have := congrArg List.length split
    rw [List.length_append] at this
    exact List.length_eq_zero_iff.mp (by omega)
  rw [matched, split, nothing, List.append_nil]

/-! ### Values -/

theorem value_append (base : ℕ) (left right : List ℕ) :
    value base (left ++ right) = value base left * base ^ right.length + value base right := by
  induction right using List.reverseRecOn with
  | nil => simp [value]
  | append_singleton right d ih =>
    rw [← List.append_assoc, List.length_append, List.length_singleton, pow_succ]
    have snoc : ∀ digits : List ℕ, value base (digits ++ [d]) = value base digits * base + d :=
      fun digits => by rw [value, List.foldl_append]; rfl
    rw [snoc, snoc, ih]
    ring

theorem digitsValue_append (left right : List Char) : digitsValue (left ++ right) =
    digitsValue left * 10 ^ right.length + digitsValue right := by
  rw [digitsValue, List.map_append, value_append, List.length_map]
  rfl

/-- Zeros in front do not count. -/
theorem digitsValue_dropWhile (digits : List Char) :
    digitsValue (digits.dropWhile (· = '0')) = digitsValue digits := by
  induction digits with
  | nil => rfl
  | cons c digits ih =>
    by_cases zero : c = '0'
    · subst zero
      rw [List.dropWhile_cons, if_pos (decide_eq_true rfl), ih, ← List.singleton_append,
        digitsValue_append]
      exact (by rw [show digitsValue ['0'] = 0 from rfl, Nat.zero_mul, Nat.zero_add])
    · rw [List.dropWhile_cons, if_neg (by simpa using zero)]

theorem toLower_of_isDigit (digit : c.isDigit = true) : c.toLower = c := by
  have high := (Char.isDigit_iff_toNat.mp digit).2
  refine dif_neg fun upper => ?_
  exact absurd (Nat.le_trans (UInt32.le_iff_toNat_le.mp upper.1) high) (by decide)

theorem map_toLower {text : List Char} (lower : ∀ c ∈ text, c.toLower = c) :
    text.map Char.toLower = text :=
  (List.map_congr_left lower).trans (List.map_id' text)

/-- The characters of a number in front of its exponent. -/
theorem Numeral.front_char (mem : c ∈ n.sign.toList ++ n.mantissa) :
    isSign c = true ∨ c.isDigit = true ∨ c = '.' := by
  rcases List.mem_append.mp mem with sign | mantissa
  · exact .inl (n.sign_valid c (Option.mem_toList.mp sign))
  · rcases List.mem_append.mp mantissa with whole | fraction
    · exact .inr (.inl (n.all_digits c (List.mem_append_left _ whole)))
    · have digits := n.all_digits
      cases there : n.fraction with
      | none =>
        rw [there] at fraction
        exact absurd fraction List.not_mem_nil
      | some behind =>
        rw [there] at fraction digits
        rcases List.mem_cons.mp fraction with point | digit
        · exact .inr (.inr point)
        · exact .inr (.inl (digits c (List.mem_append_right _ digit)))

theorem Numeral.front_lower (mem : c ∈ n.sign.toList ++ n.mantissa) : c.toLower = c ∧ c ≠ 'e' := by
  rcases n.front_char mem with sign | digit | rfl
  · rcases isSign_iff.mp sign with rfl | rfl
    · exact ⟨rfl, by decide⟩
    · exact ⟨rfl, by decide⟩
  · exact ⟨toLower_of_isDigit digit, ne_of_isDigit digit rfl⟩
  · exact ⟨rfl, by decide⟩

/-- What stands behind the mark of the exponent. -/
def Numeral.exponentTail (n : Numeral) : List Char :=
  (n.exponent.map fun e => e.sign.toList ++ e.digits).getD []

theorem Exponent.lower_spelling (e : Exponent) :
    e.spelling.map Char.toLower = 'e' :: (e.sign.toList ++ e.digits) := by
  have mark : e.mark.toLower = 'e' := by
    rcases e.mark_cases with mark | mark
    · rw [mark]
      rfl
    · rw [mark]
      rfl
  have tail : (e.sign.toList ++ e.digits).map Char.toLower = e.sign.toList ++ e.digits := by
    refine map_toLower fun c mem => ?_
    rcases List.mem_append.mp mem with sign | digit
    · rcases isSign_iff.mp (e.sign_valid c (Option.mem_toList.mp sign)) with rfl | rfl <;> rfl
    · exact toLower_of_isDigit (e.all_digits c digit)
  rw [Exponent.spelling, List.map_cons, mark, tail]

/-- The mark of the exponent parts the text in lower case. -/
theorem Numeral.partition_exponent :
    (n.spelling.map Char.toLower).takeWhile (· ≠ 'e') = n.sign.toList ++ n.mantissa ∧
      ((n.spelling.map Char.toLower).dropWhile (· ≠ 'e')).drop 1 = n.exponentTail := by
  have front : (n.sign.toList ++ n.mantissa).map Char.toLower = n.sign.toList ++ n.mantissa :=
    map_toLower fun c mem => (n.front_lower mem).1
  have no_mark : ∀ c ∈ n.sign.toList ++ n.mantissa, decide (c ≠ 'e') = true := fun c mem =>
    decide_eq_true (n.front_lower mem).2
  have stops : ∀ c ∈ (n.exponentText.map Char.toLower).head?, decide (c ≠ 'e') = false := by
    rw [Numeral.exponentText]
    cases n.exponent with
    | none => exact nofun
    | some e =>
      rw [Option.map_some, Option.getD_some, e.lower_spelling]
      rintro c ⟨⟩
      rfl
  rw [Numeral.spelling, List.map_append, front]
  refine ⟨takeWhile_front no_mark stops, ?_⟩
  rw [dropWhile_front no_mark stops, Numeral.exponentText, Numeral.exponentTail]
  cases n.exponent with
  | none => rfl
  | some e => exact congrArg (List.drop 1) e.lower_spelling

/-- The point parts the mantissa. -/
theorem Numeral.partition_point :
    n.mantissa.takeWhile (· ≠ '.') = n.whole ∧
      (n.mantissa.dropWhile (· ≠ '.')).drop 1 = n.fraction.getD [] := by
  have no_point : ∀ c ∈ n.whole, decide (c ≠ '.') = true := fun c mem =>
    decide_eq_true (ne_of_isDigit (n.all_digits c (List.mem_append_left _ mem)) rfl)
  have stops : ∀ c ∈ (pointed n.fraction).head?, decide (c ≠ '.') = false := by
    cases n.fraction with
    | none => exact nofun
    | some _ =>
      rintro c ⟨⟩
      rfl
  refine ⟨takeWhile_front no_point stops, ?_⟩
  rw [Numeral.mantissa, dropWhile_front no_point stops]
  cases n.fraction <;> rfl

/-- The sign in front of what begins with a digit or a point. -/
theorem dropWhile_sign (valid : ∀ c ∈ sign, isSign c = true)
    (stops : ∀ c ∈ rest.head?, isSign c = false) : (sign.toList ++ rest).dropWhile isSign = rest :=
  dropWhile_front (fun c mem => valid c (Option.mem_toList.mp mem)) stops

theorem signOf_front (stops : ∀ c ∈ rest.head?, isSign c = false) :
    signOf (sign.toList ++ rest) = signValue sign := by
  cases sign with
  | some c => rfl
  | none =>
    refine if_neg fun minus => ?_
    exact absurd (stops '-' minus) (by decide)

theorem digits_unsigned (all : ∀ c ∈ digits, c.isDigit = true) :
    ∀ c ∈ digits.head?, isSign c = false := fun c first =>
  not_isSign_of_isDigit (all c (List.mem_of_mem_head? first))

/-- `int` of digits with a sign. -/
theorem intOf_signed (valid : ∀ c ∈ sign, isSign c = true) (all : ∀ c ∈ digits, c.isDigit = true) :
    intOf (sign.toList ++ digits) =
      if kMaxStrDigits < digits.length then .error .valueError
      else .ok (signValue sign * digitsValue digits) := by
  rw [intOf, dropWhile_sign valid (digits_unsigned all), signOf_front (digits_unsigned all)]

/-- The digits of a number without the zeros in front, of which there are few enough. -/
theorem intOf_significant (all : ∀ c ∈ digits, c.isDigit = true)
    (few : (digits.dropWhile (· = '0')).length ≤ kMaxMantissaDigits) :
    intOf (if digits.dropWhile (· = '0') = [] then ['0'] else digits.dropWhile (· = '0')) =
      .ok (digitsValue digits : ℤ) := by
  have rest : ∀ c ∈ digits.dropWhile (· = '0'), c.isDigit = true := fun c mem =>
    all c ((List.dropWhile_sublist _).subset mem)
  by_cases none_there : digits.dropWhile (· = '0') = []
  · rw [if_pos none_there, ← digitsValue_dropWhile, none_there]
    rfl
  · rw [if_neg none_there]
    have read := @intOf_signed none _ nofun rest
    rw [if_neg (Nat.not_lt.mpr (Nat.le_trans few (by decide))), digitsValue_dropWhile] at read
    rw [show (digits.dropWhile (· = '0')) = (none : Option Char).toList ++ _ from rfl, read,
      signValue, if_neg nofun, one_mul]

/-- The digits of a number at the power of ten by which they count. -/
theorem Numeral.value_eq :
    n.value = signValue n.sign * (((digitsValue n.digits : ℤ) : ℚ) * (10 : ℚ) ^ n.scale) := by
  have ten : (10 : ℚ) ≠ 0 := by norm_num
  rw [Numeral.value, Numeral.digits, digitsValue_append, Numeral.scale, zpow_sub₀ ten,
    zpow_natCast]
  push_cast
  field_simp

/-- The digits of an exponent, with or without its sign and the zeros in front. -/
theorem Numeral.exponent_digits :
    (n.exponentTail.dropWhile fun c => isSign c || c == '0') =
      n.exponentDigits.dropWhile (· = '0') := by
  rw [Numeral.exponentTail, Numeral.exponentDigits]
  cases n.exponent with
  | none => rfl
  | some e =>
    rw [Option.map_some, Option.getD_some, Option.map_some, Option.getD_some,
      List.dropWhile_append_of_pos fun c mem => by
        rw [e.sign_valid c (Option.mem_toList.mp mem), Bool.true_or]]
    -- no digit is a sign, so both conditions stop at the same digit
    have all := e.all_digits
    generalize e.digits = digits at all
    induction digits with
    | nil => rfl
    | cons c digits ih =>
      have unsigned := not_isSign_of_isDigit (all c List.mem_cons_self)
      by_cases zero : c = '0'
      · rw [List.dropWhile_cons, if_pos (by simp [zero]), List.dropWhile_cons,
          if_pos (decide_eq_true zero), ih fun d mem => all d (List.mem_cons_of_mem _ mem)]
      · rw [List.dropWhile_cons, if_neg (by simp [zero, unsigned]), List.dropWhile_cons,
          if_neg (by simpa using zero)]

/-- The exponent, as the lexer reads it. -/
theorem Numeral.exponentOf_exponentTail :
    exponentOf n.exponentTail =
      if kMaxStrDigits < n.exponentDigits.length then .error .valueError
      else .ok n.exponentValue := by
  rw [Numeral.exponentTail, Numeral.exponentDigits, Numeral.exponentValue]
  cases n.exponent with
  | none => rfl
  | some e =>
    have some_char : e.sign.toList ++ e.digits ≠ [] := fun none_there =>
      e.some_digit (List.append_eq_nil_iff.mp none_there).2
    exact (if_neg some_char).trans (intOf_signed e.sign_valid e.all_digits)

/-- **The value of a spelling** is the number that it denotes, unless a bound is exceeded or the
exponent has more digits than are converted. -/
theorem parseDecimal_spelling :
    parseDecimal n.spelling =
      if kMaxMantissaDigits < (n.digits.dropWhile (· = '0')).length ∨
          4 < (n.exponentDigits.dropWhile (· = '0')).length then
        .error (overflowError "numeric token exceeds exact-value bounds")
      else if kMaxStrDigits < n.exponentDigits.length then .error .valueError
      else if kMaxExponent < n.scale.natAbs then
        .error (overflowError "numeric exponent exceeds exact-value bounds")
      else .ok n.value := by
  have unsigned : ∀ c ∈ n.mantissa.head?, isSign c = false := by
    simpa only [List.append_nil] using n.mantissa_unsigned []
  rw [parseDecimal, if_neg (not_not_intro (matchDecimal_self n))]
  simp only [n.partition_exponent.1, n.partition_exponent.2, dropWhile_sign n.sign_valid unsigned,
    n.partition_point.1, n.partition_point.2, n.exponent_digits, signOf_front unsigned,
    n.exponentOf_exponentTail]
  rw [show n.whole ++ n.fraction.getD [] = n.digits from rfl]
  by_cases bounds : kMaxMantissaDigits < (n.digits.dropWhile (· = '0')).length ∨
      4 < (n.exponentDigits.dropWhile (· = '0')).length
  · rw [if_pos bounds, if_pos bounds]
  rw [if_neg bounds, if_neg bounds]
  by_cases long : kMaxStrDigits < n.exponentDigits.length
  · rw [if_pos long, if_pos long]
    rfl
  have units : intOf (if n.digits.dropWhile (· = '0') = [] then ['0']
      else n.digits.dropWhile (· = '0')) = .ok (digitsValue n.digits : ℤ) :=
    intOf_significant n.all_digits (Nat.le_of_not_lt (not_or.mp bounds).1)
  rw [if_neg long, if_neg long, units]
  exact if_congr Iff.rfl rfl (congrArg Except.ok n.value_eq.symm)

/-! ### Integers -/

theorem Numeral.spelling_eq : n.spelling = n.sign.toList ++ (n.mantissa ++ n.exponentText) :=
  List.append_assoc _ _ _

theorem signOf_spelling : signOf n.spelling = signValue n.sign := by
  rw [n.spelling_eq]
  exact signOf_front (n.mantissa_unsigned n.exponentText)

/-- A spelling is an integer exactly if it has neither a point nor an exponent. -/
theorem isInteger_spelling : isInteger n.spelling = true ↔ n.IsInteger := by
  have unsigned : n.spelling.drop (matchSign n.spelling).length =
      n.mantissa ++ n.exponentText := by
    rw [n.spelling_eq, matchSign_front n.sign_valid (n.mantissa_unsigned n.exponentText),
      List.drop_left]
  rw [isInteger, unsigned, Bool.and_eq_true, List.all_eq_true, decide_eq_true_eq]
  constructor
  · rintro ⟨-, all⟩
    constructor
    · cases fraction : n.fraction with
      | none => rfl
      | some behind =>
        have point : '.' ∈ n.mantissa ++ n.exponentText := by
          rw [Numeral.mantissa, fraction]
          exact List.mem_append_left _ (List.mem_append_right _ List.mem_cons_self)
        exact absurd (all '.' point) (by decide)
    · cases exponent : n.exponent with
      | none => rfl
      | some e =>
        have mark : e.mark ∈ n.mantissa ++ n.exponentText := by
          rw [Numeral.exponentText, exponent]
          exact List.mem_append_right _ List.mem_cons_self
        have digit := all e.mark mark
        rcases e.mark_cases with letter | letter
        · rw [letter] at digit
          exact absurd digit (by decide)
        · rw [letter] at digit
          exact absurd digit (by decide)
  · rintro ⟨fraction, exponent⟩
    have text : n.mantissa ++ n.exponentText = n.digits := by
      rw [Numeral.mantissa, Numeral.exponentText, Numeral.digits, fraction, exponent]
      exact List.append_nil _
    rw [text]
    exact ⟨n.some_digit, n.all_digits⟩

/-- The digits of an integer are all that follows its sign. -/
theorem Numeral.IsInteger.unsigned {n : Numeral} (integer : n.IsInteger) :
    n.spelling.dropWhile isSign = n.digits := by
  rw [n.spelling_eq, dropWhile_sign n.sign_valid (n.mantissa_unsigned n.exponentText),
    Numeral.mantissa, Numeral.exponentText, Numeral.digits, integer.1, integer.2]
  exact List.append_nil _

theorem Numeral.IsInteger.value_eq {n : Numeral} (integer : n.IsInteger) :
    n.value = ((signValue n.sign * digitsValue n.digits : ℤ) : ℚ) := by
  have scale : n.scale = 0 := by
    rw [Numeral.scale, Numeral.exponentValue, integer.1, integer.2]
    rfl
  rw [n.value_eq, scale, zpow_zero, mul_one]
  push_cast
  rfl

/-- The bounds of an integer are those on its digits. -/
theorem Numeral.IsInteger.withinBounds_iff {n : Numeral} (integer : n.IsInteger) :
    n.WithinBounds ↔ (n.digits.dropWhile (· = '0')).length ≤ kMaxMantissaDigits := by
  refine ⟨Numeral.WithinBounds.digits, fun few => ⟨few, ?_, ?_⟩⟩
  · rw [Numeral.exponentDigits, integer.2]
    exact Nat.zero_le _
  · rw [Numeral.scale, Numeral.exponentValue, integer.1, integer.2]
    exact Nat.zero_le _

end AccessoryController.VehicleProfiles
