import AccessoryController.ControllerConfig.Persisted.JsonLoader

/-!
# The limits of a text

The loader scans a text for its limits before it is parsed. On the text of JSON items the limits
count the items' brackets and commas.

## Main results

* `preflightFrom_text`: the limits count the brackets and the commas of the items
-/

open AccessoryController.ControllerConfig (Bytes)

namespace AccessoryController.Persisted

open scoped Json
open Json (Spells IsPlain Items Kind)

/-! ### Characters -/

theorem hexValue_ne {c : UInt8} {n : ℕ} (h : Json.hexValue c = some n) :
    c ≠ 0 ∧ c ≠ 34 ∧ c ≠ 92 := by
  have hnone : Json.hexValue 0 = none ∧ Json.hexValue 34 = none ∧ Json.hexValue 92 = none := by
    decide
  refine ⟨?_, ?_, ?_⟩
  · rintro rfl
    rw [hnone.1] at h
    cases h
  · rintro rfl
    rw [hnone.2.1] at h
    cases h
  · rintro rfl
    rw [hnone.2.2] at h
    cases h

/-- A code point written with zeros only is NUL. -/
theorem hexValue_zero : Json.hexValue 48 = some 0 := by decide

theorem isPlain_ne {c : UInt8} (h : IsPlain c) : c ≠ 0 ∧ c ≠ 34 ∧ c ≠ 92 := by
  refine ⟨?_, h.2.1, h.2.2⟩
  rintro rfl
  exact absurd h.1 (by decide)

theorem shortEscape_ne {e c : UInt8} (h : (e, c) ∈ Json.shortEscapes) : e ≠ 0 ∧ e ≠ 117 := by
  have hall : ∀ pair ∈ Json.shortEscapes, pair.1 ≠ 0 ∧ pair.1 ≠ 117 := by decide
  exact hall (e, c) h

/-- The characters of a number token are no structure. -/
theorem isNumberChar_ne {c : UInt8} (h : Json.isNumberChar c = true) :
    c ≠ 0 ∧ c ≠ 34 ∧ c ≠ 123 ∧ c ≠ 91 ∧ c ≠ 44 ∧ c ≠ 125 ∧ c ≠ 93 ∧ isDelimiter c = false := by
  refine ⟨?_, ?_, ?_, ?_, ?_, ?_, ?_, ?_⟩
  case refine_8 =>
    by_contra hdelimiter
    rw [Bool.not_eq_false] at hdelimiter
    have hall : ∀ d ∈ ascii ",]\x7d \t\r\n", Json.isNumberChar d = false := by decide
    rw [hall c (by simpa [isDelimiter] using hdelimiter)] at h
    cases h
  all_goals
    rintro rfl
    exact absurd h (by decide)

/-! ### Limits -/

section

variable {d e : ℕ} (rest : Bytes)

/-- A spelled string is passed over. -/
theorem preflightFrom_body {body value : Bytes} (h : Spells body value) :
    preflightFrom ⟨d, e, true, false⟩ (body ++ 34 :: rest) =
      preflightFrom ⟨d, e, false, false⟩ rest := by
  induction h with
  | nil => simp [preflightFrom]
  | plain hc _ ih =>
    obtain ⟨hzero, hquote, hbackslash⟩ := isPlain_ne hc
    rw [List.cons_append, preflightFrom_plain _ hzero hquote hbackslash, ih]
  | short hc _ ih =>
    obtain ⟨hzero, hu⟩ := shortEscape_ne hc
    rw [List.cons_append, List.cons_append, ← ih]
    simp [preflightFrom, Json.backslash, hzero, hu]
  | @codePoint high low m n body value hhigh hlow hpos hbyte _ ih =>
    obtain ⟨hzero, hquote, hbackslash⟩ := hexValue_ne hhigh
    obtain ⟨hzero', hquote', hbackslash'⟩ := hexValue_ne hlow
    -- four zeros would spell NUL
    have hnul : ¬ (high = 48 ∧ low = 48) := by
      rintro ⟨rfl, rfl⟩
      rw [hexValue_zero] at hhigh hlow
      rw [← Option.some.inj hhigh, ← Option.some.inj hlow] at hpos
      exact absurd hpos (by decide)
    have hescape : preflightFrom ⟨d, e, true, false⟩
        (Json.backslash :: 117 :: 48 :: 48 :: high :: low :: (body ++ 34 :: rest)) =
        preflightFrom ⟨d, e, true, false⟩ (48 :: 48 :: high :: low :: (body ++ 34 :: rest)) := by
      simp [preflightFrom, Json.backslash, hnul]
    simp only [List.cons_append]
    rw [hescape, preflightFrom_plain _ (by decide) (by decide) (by decide),
      preflightFrom_plain _ (by decide) (by decide) (by decide),
      preflightFrom_plain _ hzero hquote hbackslash,
      preflightFrom_plain _ hzero' hquote' hbackslash', ih]

theorem preflightFrom_token {token : Bytes} (h : ∀ c ∈ token, Json.isNumberChar c = true) :
    preflightFrom ⟨d, e, false, false⟩ (token ++ rest) =
      preflightFrom ⟨d, e, false, false⟩ rest := by
  induction token with
  | nil => rfl
  | cons c token ih =>
    obtain ⟨hc, htoken⟩ := List.forall_mem_cons.mp h
    obtain ⟨hzero, hquote, hbrace, hbracket, hcomma, hclose, hclose', -⟩ := isNumberChar_ne hc
    rw [List.cons_append, ← ih htoken]
    simp [preflightFrom, hzero, hquote, hbrace, hbracket, hcomma, hclose, hclose']

theorem preflightFrom_quoted {body value : Bytes} (h : Spells body value) (more : Bytes) :
    preflightFrom ⟨d, e, false, false⟩ (34 :: (body ++ 34 :: more)) =
      preflightFrom ⟨d, e, false, false⟩ more := by
  rw [← preflightFrom_body more h]
  simp [preflightFrom]

/-- The result of a scan that goes on once that many elements have been counted. -/
def within (elements : ℕ) (result : InputPreflight) : InputPreflight :=
  if elements ≤ kMaxControllerConfigJsonNodes then result else .resourceExhausted

theorem within_of_le {elements : ℕ} {result : InputPreflight}
    (h : elements ≤ kMaxControllerConfigJsonNodes) : within elements result = result := if_pos h

theorem within_of_lt {elements : ℕ} {result : InputPreflight}
    (h : kMaxControllerConfigJsonNodes < elements) :
    within elements result = .resourceExhausted := if_neg (Nat.not_le.mpr h)

/-- The text before the items inside: a bracket is one element and one level. -/
theorem preflightFrom_opening {kind : Kind} (hkind : kind.WellFormed)
    (hd : d + kind.brackets ≤ kMaxControllerConfigJsonNesting)
    (he : e ≤ kMaxControllerConfigJsonNodes) :
    preflightFrom ⟨d, e, false, false⟩ (kind.opening ++ rest) =
      within (e + kind.brackets)
        (preflightFrom ⟨d + kind.brackets, e + kind.brackets, false, false⟩ rest) := by
  have hbracket : ∀ {c}, c = 123 ∨ c = 91 → d + 1 ≤ kMaxControllerConfigJsonNesting →
      preflightFrom ⟨d, e, false, false⟩ (c :: rest) =
        within (e + 1) (preflightFrom ⟨d + 1, e + 1, false, false⟩ rest) := by
    intro c hc hdepth
    have hzero : c ≠ 0 ∧ c ≠ 34 := by rcases hc with rfl | rfl <;> decide
    by_cases hfits : e + 1 ≤ kMaxControllerConfigJsonNodes
    · simp [preflightFrom, hzero, hc, Nat.not_lt.mpr hdepth, Nat.not_lt.mpr hfits,
        within_of_le hfits]
    · rw [Nat.not_le] at hfits
      simp [preflightFrom, hzero, hc, Nat.not_lt.mpr hdepth, hfits, within_of_lt hfits]
  cases kind with
  | null => simp [Kind.opening, Kind.brackets, preflightFrom, within_of_le he]
  | boolean value =>
    cases value <;> simp [Kind.opening, Kind.brackets, preflightFrom, within_of_le he]
  | number token =>
    simp only [Kind.opening, Kind.brackets, Nat.add_zero, within_of_le he]
    exact preflightFrom_token rest hkind.isNumberChar
  | string body value =>
    simp only [Kind.opening, Kind.brackets, Nat.add_zero, within_of_le he, List.cons_append,
      List.append_assoc, List.nil_append]
    exact preflightFrom_quoted hkind rest
  | array => exact hbracket (.inr rfl) hd
  | object => exact hbracket (.inl rfl) hd

theorem preflightFrom_closing (kind : Kind) :
    preflightFrom ⟨d + kind.brackets, e, false, false⟩ (kind.closing ++ rest) =
      preflightFrom ⟨d, e, false, false⟩ rest := by
  cases kind <;> simp [Kind.brackets, Kind.closing, preflightFrom]

/-- The comma before a later item is one element. -/
theorem preflightFrom_comma (first : Bool) (he : e ≤ kMaxControllerConfigJsonNodes) :
    preflightFrom ⟨d, e, false, false⟩ ((if first then [] else [Json.comma]) ++ rest) =
      within (e + (if first then 0 else 1))
        (preflightFrom ⟨d, e + (if first then 0 else 1), false, false⟩ rest) := by
  cases first with
  | true => exact (within_of_le he).symm
  | false =>
    by_cases hfits : e + 1 ≤ kMaxControllerConfigJsonNodes
    · simp [preflightFrom, Json.comma, Nat.not_lt.mpr hfits, within_of_le hfits]
    · rw [Nat.not_le] at hfits
      simp [preflightFrom, Json.comma, hfits, within_of_lt hfits]

theorem preflightFrom_key {key : Bytes} (hkey : ∀ c ∈ key, IsPlain c) (keyed : Bool) :
    preflightFrom ⟨d, e, false, false⟩
        ((if keyed then Json.quote :: key ++ [Json.quote, Json.colon] else []) ++ rest) =
      preflightFrom ⟨d, e, false, false⟩ rest := by
  cases keyed with
  | false => rfl
  | true =>
    have hcolon : preflightFrom ⟨d, e, false, false⟩ (Json.colon :: rest) =
        preflightFrom ⟨d, e, false, false⟩ rest := by
      simp [preflightFrom, Json.colon]
    simp only [if_true, List.cons_append, List.append_assoc, List.nil_append]
    exact (preflightFrom_quoted (Json.spells_of_plain hkey) _).trans hcolon

end

/-- **The limits count** the brackets and the commas of the items. -/
theorem preflightFrom_text {items : Items} {keyed : Bool} (hitems : items.WellFormed keyed)
    (first : Bool) {d e : ℕ} (hd : d + items.nesting ≤ kMaxControllerConfigJsonNesting)
    (he : e ≤ kMaxControllerConfigJsonNodes) (rest : Bytes) :
    preflightFrom ⟨d, e, false, false⟩ (items.text keyed first ++ rest) =
      within (e + items.elements first)
        (preflightFrom ⟨d, e + items.elements first, false, false⟩ rest) := by
  induction items generalizing keyed first d e rest with
  | nil => exact (within_of_le he).symm
  | cons key kind inner next ihInner ihNext =>
    obtain ⟨⟨⟨hkey, -⟩, hkind, -⟩, hinner, hnext⟩ := hitems
    simp only [Items.nesting] at hd
    have hdepth : d + kind.brackets + inner.nesting ≤ kMaxControllerConfigJsonNesting := by omega
    have hdepth' : d + next.nesting ≤ kMaxControllerConfigJsonNesting := by omega
    simp only [Items.text, Items.elements, List.append_assoc]
    rw [preflightFrom_comma _ _ he, preflightFrom_key _ hkey]
    generalize (if first then 0 else 1) = comma
    -- each part either fits or exceeds the budget, which a later part does not undo
    by_cases hfits : e + comma ≤ kMaxControllerConfigJsonNodes
    swap
    · rw [within_of_lt (by omega), within_of_lt (by omega)]
    rw [within_of_le hfits, preflightFrom_opening _ hkind (by omega) hfits]
    by_cases hopen : e + comma + kind.brackets ≤ kMaxControllerConfigJsonNodes
    swap
    · rw [within_of_lt (by omega), within_of_lt (by omega)]
    rw [within_of_le hopen, ihInner hinner _ hdepth hopen]
    by_cases hin : e + comma + kind.brackets + inner.elements true ≤ kMaxControllerConfigJsonNodes
    swap
    · rw [within_of_lt (by omega), within_of_lt (by omega)]
    rw [within_of_le hin, preflightFrom_closing, ihNext hnext _ hdepth' hin]
    simp only [Nat.add_assoc]

end AccessoryController.Persisted
