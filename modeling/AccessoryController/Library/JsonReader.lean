import Mathlib.Data.List.TakeWhile
import AccessoryController.Library.Json

/-!
# A reader of JSON texts

A recursive-descent reader of JSON without white space. It reads the text of well-formed items back
as the items.

## Main definitions

* `Json.read`: the items of a text

## Main results

* `Json.read_text`: the reader on the text of one item
-/

namespace Json

/-! ### Strings -/

/-- An escape after its backslash: the spelling, the value, and what follows. -/
def readEscape (text : Bytes) : Option (Bytes × UInt8 × Bytes) :=
  match text with
  | [] => none
  | e :: rest =>
    if e = 117 then
      match rest with
      | 48 :: 48 :: high :: low :: rest => do
        let m ← hexValue high
        let n ← hexValue low
        if 0 < 16 * m + n ∧ 16 * m + n < 128 then
          some ([backslash, 117, 48, 48, high, low], UInt8.ofNat (16 * m + n), rest)
        else none
      | _ => none
    else (shortEscapes.lookup e).map fun c => ([backslash, e], c, rest)

/-- A character of a string: its spelling, its value, and what follows. -/
def readCharacter (c : UInt8) (rest : Bytes) : Option (Bytes × UInt8 × Bytes) :=
  if c = backslash then readEscape rest else if IsPlain c then some ([c], c, rest) else none

/-- A string after its opening quote: the spelling, the value, and what follows the closing
quote. -/
def readString : ℕ → Bytes → Option (Bytes × Bytes × Bytes)
  | 0, _ => none
  | _ + 1, [] => none
  | fuel + 1, c :: rest =>
    if c = quote then some ([], [], rest)
    else do
      let (spelling, c, rest) ← readCharacter c rest
      let (body, value, rest) ← readString fuel rest
      return (spelling ++ body, c :: value, rest)

variable {fuel : ℕ} {rest key : Bytes} {keyed : Bool} {kind : Kind}

theorem readString_of_character {c d : UInt8} {text rest' spelling body value : Bytes}
    (hquote : c ≠ quote) (hchar : readCharacter c text = some (spelling, d, rest))
    (hbody : readString fuel rest = some (body, value, rest')) :
    readString (fuel + 1) (c :: text) = some (spelling ++ body, d :: value, rest') := by
  rw [readString, if_neg hquote, hchar]
  simp only [Option.bind_eq_bind, Option.bind_some, hbody, Option.pure_def]

/-- **A spelled string** is read back. -/
theorem readString_spells {body value : Bytes} (h : Spells body value) (rest : Bytes)
    (hfuel : body.length < fuel) :
    readString fuel (body ++ quote :: rest) = some (body, value, rest) := by
  induction h generalizing fuel with
  | nil =>
    obtain ⟨fuel, rfl⟩ := Nat.exists_eq_add_of_lt hfuel
    rfl
  | @plain c body value hc _ ih =>
    obtain _ | fuel := fuel
    · exact absurd hfuel (Nat.not_lt_zero _)
    have hchar : readCharacter c (body ++ quote :: rest) = some ([c], c, body ++ quote :: rest) := by
      rw [readCharacter, if_neg hc.2.2, if_pos hc]
    exact readString_of_character hc.2.1 hchar (ih (Nat.lt_of_succ_lt_succ hfuel))
  | @short e c body value hc _ ih =>
    obtain _ | fuel := fuel
    · exact absurd hfuel (Nat.not_lt_zero _)
    have hlookup : ∀ pair ∈ shortEscapes, shortEscapes.lookup pair.1 = some pair.2 ∧
        pair.1 ≠ 117 := by decide
    obtain ⟨hvalue, hne⟩ := hlookup (e, c) hc
    have hchar : readCharacter backslash (e :: (body ++ quote :: rest)) =
        some ([backslash, e], c, body ++ quote :: rest) := by
      rw [readCharacter, if_pos rfl]
      exact (if_neg hne).trans (by rw [hvalue]; rfl)
    refine readString_of_character (by decide) hchar (ih ?_)
    simp only [List.length_cons] at hfuel
    omega
  | @codePoint high low m n body value hhigh hlow hpos hbyte _ ih =>
    obtain _ | fuel := fuel
    · exact absurd hfuel (Nat.not_lt_zero _)
    have hchar : readCharacter backslash
        (117 :: 48 :: 48 :: high :: low :: (body ++ quote :: rest)) = some
          ([backslash, 117, 48, 48, high, low], UInt8.ofNat (16 * m + n), body ++ quote :: rest) := by
      rw [readCharacter, if_pos rfl, readEscape, if_pos rfl]
      simp only [hhigh, hlow, Option.bind_eq_bind, Option.bind_some, hpos, hbyte, and_self, if_true]
    refine readString_of_character (by decide) hchar (ih ?_)
    simp only [List.length_cons] at hfuel
    omega

/-! ### Tokens -/

/-- A fixed text and what follows it. -/
def expect (expected text : Bytes) : Option Bytes :=
  if expected <+: text then some (text.drop expected.length) else none

theorem expect_append (expected rest : Bytes) : expect expected (expected ++ rest) = some rest := by
  rw [expect, if_pos (List.prefix_append expected rest), List.drop_left]

def readKey (text : Bytes) : Option (Bytes × Bytes) := do
  let text ← expect [quote] text
  let (_, key, text) ← readString text.length text
  let text ← expect [colon] text
  return (key, text)

theorem readKey_plain (h : ∀ c ∈ key, IsPlain c) (rest : Bytes) :
    readKey (quote :: key ++ [quote, colon] ++ rest) = some (key, rest) := by
  have hfuel : key.length < (key ++ quote :: colon :: rest).length := by
    simp only [List.length_append, List.length_cons]
    omega
  have hstring := readString_spells (spells_of_plain h) (colon :: rest) hfuel
  have hquote := expect_append [quote] (key ++ quote :: colon :: rest)
  have hcolon := expect_append [colon] rest
  simp only [List.singleton_append] at hquote hcolon
  simp only [readKey, List.cons_append, List.append_assoc, List.nil_append, hquote,
    Option.bind_eq_bind, Option.bind_some, hstring, hcolon, Option.pure_def]

/-- The key of an item and its colon. -/
def readName (keyed : Bool) (text : Bytes) : Option (Bytes × Bytes) :=
  if keyed then readKey text else some ([], text)

theorem readName_key (hkey : IsKey key keyed) (rest : Bytes) :
    readName keyed ((if keyed then quote :: key ++ [quote, colon] else []) ++ rest) =
      some (key, rest) := by
  cases keyed with
  | true => exact readKey_plain hkey.1 rest
  | false =>
    rw [hkey.2 rfl]
    rfl

/-- What stands before the items inside an item. -/
def readKind (text : Bytes) : Option (Kind × Bytes) :=
  match text with
  | [] => none
  | c :: rest =>
    if c = quote then
      (readString rest.length rest).map fun (body, value, rest) => (.string body value, rest)
    else if c = 123 then some (.object, rest)
    else if c = 91 then some (.array, rest)
    else if isNumberStart c then
      some (.number (text.takeWhile isNumberChar), text.dropWhile isNumberChar)
    else if c = 110 then (expect Kind.null.opening text).map fun rest => (.null, rest)
    else if c = 116 then
      (expect (Kind.boolean true).opening text).map fun rest => (.boolean true, rest)
    else (expect (Kind.boolean false).opening text).map fun rest => (.boolean false, rest)

/-- What may follow a number. -/
def EndsNumber (rest : Bytes) : Prop := ∀ c, rest.head? = some c → isNumberChar c = false

theorem readKind_opening (hkind : kind.WellFormed)
    (hrest : kind.isContainer = false → EndsNumber rest) :
    readKind (kind.opening ++ rest) = some (kind, rest) := by
  cases kind with
  | null => rfl
  | boolean value => cases value <;> rfl
  | number token =>
    have htake : (token ++ rest).takeWhile isNumberChar = token ∧
        (token ++ rest).dropWhile isNumberChar = rest := by
      have hchars : ∀ c ∈ token, isNumberChar c = true := hkind.isNumberChar
      rw [List.takeWhile_append_of_pos hchars, List.dropWhile_append_of_pos hchars]
      cases rest with
      | nil => simp
      | cons c rest =>
        have hc := hrest rfl c rfl
        simp [hc]
    obtain ⟨c, more, rfl, hstart⟩ := hkind.exists_cons
    have hne : c ≠ quote ∧ c ≠ 123 ∧ c ≠ 91 := by
      refine ⟨?_, ?_, ?_⟩ <;>
      · rintro rfl
        exact absurd hstart (by decide)
    simp only [Kind.opening, List.cons_append] at htake ⊢
    simp only [readKind, hne, hstart, if_false, if_true, htake]
  | string body value =>
    have hfuel : body.length < (body ++ quote :: rest).length := by
      simp only [List.length_append, List.length_cons]
      omega
    have hstring := readString_spells hkind rest hfuel
    simp only [Kind.opening, List.cons_append, List.append_assoc, List.nil_append]
    simp only [readKind, if_true, hstring, Option.map_some]
  | array => rfl
  | object => rfl

/-! ### Chains -/

/-- A chain ends with the text or before a closing bracket. -/
def AtEnd (text : Bytes) : Prop := ∀ c, text.head? = some c → c = 93 ∨ c = 125

instance (text : Bytes) : Decidable (AtEnd text) :=
  match text with
  | [] => .isTrue fun c hc => by cases hc
  | c :: _ => decidable_of_iff (c = 93 ∨ c = 125)
    ⟨fun h d hd => Option.some.inj hd ▸ h, fun h => h c rfl⟩

theorem AtEnd.endsNumber {text : Bytes} (h : AtEnd text) : EndsNumber text := by
  intro c hc
  rcases h c hc with rfl | rfl <;> decide

/-- The items of a chain up to its end. -/
def readChain : ℕ → (keyed first : Bool) → Bytes → Option (Items × Bytes)
  | 0, _, _, _ => none
  | fuel + 1, keyed, first, text =>
    if AtEnd text then some (.nil, text)
    else do
      let text ← expect (if first then [] else [comma]) text
      let (key, text) ← readName keyed text
      let (kind, text) ← readKind text
      let (inner, text) ←
        cond kind.isContainer (readChain fuel kind.isObject true text) (some (.nil, text))
      let text ← expect kind.closing text
      let (next, text) ← readChain fuel keyed false text
      return (.cons key kind inner next, text)

theorem not_atEnd_opening (hkind : kind.WellFormed) (rest : Bytes) :
    ¬ AtEnd (kind.opening ++ rest) := by
  have hcons : ∃ c more, kind.opening = c :: more ∧ ¬ (c = 93 ∨ c = 125) := by
    cases kind with
    | null => exact ⟨_, _, rfl, by decide⟩
    | boolean value => cases value <;> exact ⟨_, _, rfl, by decide⟩
    | number token =>
      obtain ⟨c, more, htoken, hstart⟩ := hkind.exists_cons
      refine ⟨c, more, htoken, ?_⟩
      rintro (rfl | rfl) <;> exact absurd hstart (by decide)
    | string body value => exact ⟨_, _, rfl, by decide⟩
    | array => exact ⟨_, _, rfl, by decide⟩
    | object => exact ⟨_, _, rfl, by decide⟩
  obtain ⟨c, more, hopening, hc⟩ := hcons
  rw [hopening]
  exact fun h => hc (h c rfl)

theorem not_atEnd_text {inner next : Items} (hkind : kind.WellFormed) (keyed first : Bool)
    (rest : Bytes) : ¬ AtEnd ((Items.cons key kind inner next).text keyed first ++ rest) := by
  intro h
  rw [Items.text] at h
  cases first with
  | false => exact absurd (h comma rfl) (by decide)
  | true =>
    cases keyed with
    | true => exact absurd (h quote rfl) (by decide)
    | false =>
      simp only [if_true, List.nil_append, Bool.false_eq_true, if_false, List.append_assoc] at h
      exact not_atEnd_opening hkind _ h

/-- Later items cannot continue a number. -/
theorem endsNumber_text (items : Items) (keyed : Bool) (hrest : AtEnd rest) :
    EndsNumber (items.text keyed false ++ rest) := by
  cases items with
  | nil => exact hrest.endsNumber
  | cons key kind inner next =>
    intro c hc
    obtain rfl : comma = c := Option.some.inj hc
    decide

/-- **A reader step**: an item, what is inside, and the items after it. -/
theorem readChain_cons {first : Bool} {inner next : Items} (hkey : IsKey key keyed)
    (hkind : kind.WellFormed) (hscalar : kind.isContainer = false → inner = .nil)
    (hinner : ∀ rest, AtEnd rest → readChain fuel kind.isObject true
      (inner.text kind.isObject true ++ rest) = some (inner, rest))
    (hnext : readChain fuel keyed false (next.text keyed false ++ rest) = some (next, rest))
    (hrest : AtEnd rest) :
    readChain (fuel + 1) keyed first ((Items.cons key kind inner next).text keyed first ++ rest) =
      some (.cons key kind inner next, rest) := by
  have hbody : ∀ text, (kind.isContainer = true → AtEnd text) →
      cond kind.isContainer (readChain fuel kind.isObject true
        (inner.text kind.isObject true ++ text))
        (some (.nil, inner.text kind.isObject true ++ text)) = some (inner, text) := by
    intro text htext
    cases hcontainer : kind.isContainer with
    | true => exact hinner text (htext hcontainer)
    | false =>
      rw [hscalar hcontainer]
      rfl
  have hends : kind.isContainer = false → EndsNumber (inner.text kind.isObject true ++
      (kind.closing ++ (next.text keyed false ++ rest))) := by
    intro hcontainer
    have hclosing : kind.closing = [] := by cases kind <;> first | rfl | cases hcontainer
    rw [hscalar hcontainer, hclosing]
    exact endsNumber_text next keyed hrest
  have hopening := readKind_opening hkind hends
  have hclosed : kind.isContainer = true →
      AtEnd (kind.closing ++ (next.text keyed false ++ rest)) := by
    intro hcontainer c hc
    cases kind with
    | array => exact .inl (Option.some.inj hc).symm
    | object => exact .inr (Option.some.inj hc).symm
    | _ => cases hcontainer
  rw [readChain, if_neg (not_atEnd_text hkind keyed first rest)]
  simp only [Items.text, List.append_assoc, expect_append, Option.bind_eq_bind, Option.bind_some,
    readName_key hkey, hopening, hbody _ hclosed, hnext, Option.pure_def]

/-! ### Texts -/

/-- The number of items. -/
def Items.size : Items → ℕ
  | nil => 0
  | cons _ _ inner next => inner.size + next.size + 1

/-- **The reader on a chain**, up to the end of the chain. -/
theorem readChain_text {items : Items} (h : items.WellFormed keyed) (hfuel : items.size < fuel)
    (first : Bool) (hrest : AtEnd rest) :
    readChain fuel keyed first (items.text keyed first ++ rest) = some (items, rest) := by
  induction items generalizing keyed fuel first rest with
  | nil =>
    obtain ⟨fuel, rfl⟩ := Nat.exists_eq_add_of_lt hfuel
    exact if_pos hrest
  | cons key kind inner next ihInner ihNext =>
    obtain ⟨⟨hkey, hkind, hscalar⟩, hinner, hnext⟩ := h
    obtain _ | fuel := fuel
    · exact absurd hfuel (Nat.not_lt_zero _)
    simp only [Items.size] at hfuel
    exact readChain_cons hkey hkind hscalar
      (fun rest hrest => ihInner hinner (by omega) true hrest)
      (ihNext hnext (by omega) false hrest) hrest

/-- Every item takes a character. -/
theorem size_le_length {items : Items} (h : items.WellFormed keyed) (first : Bool) :
    items.size ≤ (items.text keyed first).length := by
  induction items generalizing keyed first with
  | nil => exact Nat.zero_le _
  | cons key kind inner next ihInner ihNext =>
    obtain ⟨⟨-, hkind, -⟩, hinner, hnext⟩ := h
    have hopening : kind.opening ≠ [] := fun hnil =>
      not_atEnd_opening hkind [] (by rw [hnil]; exact fun c hc => by cases hc)
    have hpos := List.length_pos_iff.mpr hopening
    have hi := ihInner hinner true
    have hn := ihNext hnext false
    simp only [Items.size, Items.text, List.length_append]
    omega

/-- The item of a text. -/
def read (text : Bytes) : Option (Kind × Items) :=
  match readChain (text.length + 1) false true text with
  | some (.cons _ kind inner .nil, []) => some (kind, inner)
  | _ => none

/-- **The reader on the text of one item.** -/
theorem read_text {inner : Items} (h : (Items.cons [] kind inner .nil).WellFormed false) :
    read ((Items.cons [] kind inner .nil).text false true) = some (kind, inner) := by
  have hend : AtEnd [] := fun c hc => by cases hc
  have hchain := readChain_text h (Nat.lt_succ_of_le (size_le_length h true)) true hend
  rw [List.append_nil] at hchain
  rw [read, hchain]

end Json
