import Mathlib.Algebra.GroupWithZero.Nat
import Mathlib.Data.List.Basic

/-!
# JSON texts

JSON without white space, as byte strings. A chain of items holds an item with its key, the items
inside it and the items after it, so that one induction goes over a whole document. A number is
its token, and a string has the spelling that stands in the text beside the value that it spells.

## Main definitions

* `Json.Items`: a chain of items
* `Json.Items.text`: its text
* `Json.Items.numbers`, `elements`, `nesting`: its number tokens and its size
* `Json.Items.WellFormed`: every token, every string and every key is one of JSON
-/

namespace Json

/-- A statement about the entries of a list is decided along the list, also when there are only
finitely many values to try. -/
scoped instance (priority := 1100) decidableAlong {α : Type} (p : α → Prop) [DecidablePred p]
    (entries : List α) : Decidable (∀ c ∈ entries, p c) := List.decidableBAll p entries

abbrev Bytes := List UInt8

/-! ### Tokens -/

def quote : UInt8 := 34
def backslash : UInt8 := 92
def comma : UInt8 := 44
def colon : UInt8 := 58

def isDigit (c : UInt8) : Bool := decide (48 ≤ c) && decide (c ≤ 57)

/-- One or more digits. -/
def Digits (text : Bytes) : Prop := text ≠ [] ∧ ∀ c ∈ text, isDigit c = true

/-- An optional fraction and an optional exponent. -/
def IsFraction (text : Bytes) : Prop := text = [] ∨ ∃ digits, Digits digits ∧ text = 46 :: digits

def IsExponent (text : Bytes) : Prop :=
  text = [] ∨ ∃ e sign digits, e ∈ [101, 69] ∧ sign ∈ [[], [43], [45]] ∧ Digits digits ∧
    text = e :: sign ++ digits

/-- The token of a number: an integer part without a leading zero, a fraction, an exponent. -/
inductive IsNumber : Bytes → Prop
  | mk (sign whole fraction exponent : Bytes) (hsign : sign = [] ∨ sign = [45])
      (hwhole : Digits whole) (hzero : whole.head? = some 48 → whole = [48])
      (hfraction : IsFraction fraction) (hexponent : IsExponent exponent) :
      IsNumber (sign ++ whole ++ fraction ++ exponent)

/-- A byte that stands for itself in a string. -/
def IsPlain (c : UInt8) : Prop := 32 ≤ c ∧ c ≠ quote ∧ c ≠ backslash

instance (c : UInt8) : Decidable (IsPlain c) := by unfold IsPlain; infer_instance

/-- A key that needs no escapes; without keys it is empty. -/
def IsKey (key : Bytes) (keyed : Bool) : Prop :=
  (∀ c ∈ key, IsPlain c) ∧ (keyed = false → key = [])

instance (key : Bytes) (keyed : Bool) : Decidable (IsKey key keyed) := by
  unfold IsKey
  infer_instance

/-- The letters that follow a backslash, with the bytes that they stand for. -/
def shortEscapes : List (UInt8 × UInt8) :=
  [(34, 34), (92, 92), (47, 47), (98, 8), (102, 12), (110, 10), (114, 13), (116, 9)]

def hexValue (c : UInt8) : Option ℕ :=
  if isDigit c then some (c.toNat - 48)
  else if 97 ≤ c ∧ c ≤ 102 then some (c.toNat - 87)
  else if 65 ≤ c ∧ c ≤ 70 then some (c.toNat - 55)
  else none

/-- The spelling of a string between its quotes, and the string. Of the escapes by code point
only those of one byte occur, and none stands for NUL. -/
inductive Spells : Bytes → Bytes → Prop
  | nil : Spells [] []
  | plain {c : UInt8} {body value : Bytes} (hc : IsPlain c) (h : Spells body value) :
      Spells (c :: body) (c :: value)
  | short {e c : UInt8} {body value : Bytes} (hc : (e, c) ∈ shortEscapes)
      (h : Spells body value) : Spells (backslash :: e :: body) (c :: value)
  | codePoint {high low : UInt8} {m n : ℕ} {body value : Bytes} (hhigh : hexValue high = some m)
      (hlow : hexValue low = some n) (hpos : 0 < 16 * m + n) (hbyte : 16 * m + n < 128)
      (h : Spells body value) :
      Spells (backslash :: 117 :: 48 :: 48 :: high :: low :: body)
        (UInt8.ofNat (16 * m + n) :: value)

/-- A text without escapes is its own spelling. -/
theorem spells_of_plain {key : Bytes} (h : ∀ c ∈ key, IsPlain c) : Spells key key := by
  induction key with
  | nil => exact .nil
  | cons c key ih =>
    obtain ⟨hc, hkey⟩ := List.forall_mem_cons.mp h
    exact .plain hc (ih hkey)

/-! ### Items -/

inductive Kind
  | null
  | boolean (value : Bool)
  | number (token : Bytes)
  | string (body value : Bytes)
  | array
  | object
  deriving DecidableEq, Repr

namespace Kind

def isContainer : Kind → Bool
  | array | object => true
  | _ => false

/-- The opening brackets of an item. -/
def brackets : Kind → ℕ
  | array | object => 1
  | _ => 0

/-- The items inside have keys. -/
def isObject : Kind → Bool
  | object => true
  | _ => false

/-- The text before the items inside. -/
def opening : Kind → Bytes
  | null => [110, 117, 108, 108]
  | boolean true => [116, 114, 117, 101]
  | boolean false => [102, 97, 108, 115, 101]
  | number token => token
  | string body _ => quote :: body ++ [quote]
  | array => [91]
  | object => [123]

/-- The text after the items inside. -/
def closing : Kind → Bytes
  | array => [93]
  | object => [125]
  | _ => []

def tokens : Kind → List Bytes
  | number token => [token]
  | _ => []

def WellFormed : Kind → Prop
  | number token => IsNumber token
  | string body value => Spells body value
  | _ => True

end Kind

/-- A chain of items. -/
inductive Items
  | nil
  | cons (key : Bytes) (kind : Kind) (inner next : Items)
  deriving DecidableEq, Repr

/-- One item of a chain. -/
structure Item where
  key : Bytes := []
  kind : Kind
  inner : Items := .nil
  deriving DecidableEq, Repr

namespace Items

def ofList : List Item → Items
  | [] => nil
  | item :: rest => cons item.key item.kind item.inner (ofList rest)

/-- The text of a chain, in an object or in an array, from its first item or from a later one. -/
def text : Items → (keyed first : Bool) → Bytes
  | nil, _, _ => []
  | cons key kind inner next, keyed, first =>
    (if first then [] else [comma]) ++
      ((if keyed then quote :: key ++ [quote, colon] else []) ++
        (kind.opening ++ (inner.text kind.isObject true ++
          (kind.closing ++ next.text keyed false))))

/-- The number tokens, in the order of the text. -/
def numbers : Items → List Bytes
  | nil => []
  | cons _ kind inner next => kind.tokens ++ (inner.numbers ++ next.numbers)

/-- The opening brackets and the commas of the text. -/
def elements : Items → (first : Bool) → ℕ
  | nil, _ => 0
  | cons _ kind inner next, first =>
    (if first then 0 else 1) + (kind.brackets + (inner.elements true + next.elements false))

/-- The depth of the brackets. -/
def nesting : Items → ℕ
  | nil => 0
  | cons _ kind inner next => max (kind.brackets + inner.nesting) next.nesting

/-- Every token, every string and every key is one of JSON. -/
def WellFormed : Items → (keyed : Bool) → Prop
  | nil, _ => True
  | cons key kind inner next, keyed =>
    (IsKey key keyed ∧ kind.WellFormed ∧ (kind.isContainer = false → inner = nil)) ∧
      inner.WellFormed kind.isObject ∧ next.WellFormed keyed

end Items

namespace Item

/-- An item as a chain of its own. -/
def alone (item : Item) : Items := .ofList [item]

/-- The brackets and the commas of an item. -/
def elements (item : Item) : ℕ := item.alone.elements true

def nesting (item : Item) : ℕ := item.alone.nesting

def WellFormed (item : Item) (keyed : Bool) : Prop := item.alone.WellFormed keyed

end Item

/-! ### Chains of listed items -/

namespace Items

attribute [local simp] ofList elements

variable {items : List Item}

theorem wellFormed_ofList {keyed : Bool} :
    (ofList items).WellFormed keyed ↔ ∀ item ∈ items, item.WellFormed keyed := by
  induction items with
  | nil => exact ⟨fun _ item hitem => absurd hitem List.not_mem_nil, fun _ => trivial⟩
  | cons item rest ih =>
    rw [List.forall_mem_cons, ← ih]
    constructor
    · rintro ⟨hitem, hinner, hrest⟩
      exact ⟨⟨hitem, hinner, trivial⟩, hrest⟩
    · rintro ⟨⟨hitem, hinner, -⟩, hrest⟩
      exact ⟨hitem, hinner, hrest⟩

theorem nesting_ofList_le {n : ℕ} (h : ∀ item ∈ items, item.nesting ≤ n) :
    (ofList items).nesting ≤ n := by
  induction items with
  | nil => exact Nat.zero_le n
  | cons item rest ih =>
    obtain ⟨hitem, hrest⟩ := List.forall_mem_cons.mp h
    exact Nat.max_le.mpr ⟨Nat.le_trans (Nat.le_max_left _ _) hitem, ih hrest⟩

theorem elements_alone (item : Item) :
    item.elements = item.kind.brackets + item.inner.elements true := by
  simp only [Item.elements, Item.alone, ofList, elements, if_true, Nat.zero_add, Nat.add_zero]

/-- A comma stands before every later item. -/
theorem elements_ofList_later :
    (ofList items).elements false = items.length + (items.map Item.elements).sum := by
  induction items with
  | nil => rfl
  | cons item rest ih =>
    simp only [ofList, elements, ih, Bool.false_eq_true, if_false, List.length_cons, List.map_cons,
      List.sum_cons, elements_alone]
    omega

theorem elements_ofList :
    (ofList items).elements true = items.length - 1 + (items.map Item.elements).sum := by
  cases items with
  | nil => rfl
  | cons item rest =>
    simp only [ofList, elements, elements_ofList_later, if_true, List.length_cons, List.map_cons,
      List.sum_cons, elements_alone]
    omega

end Items

/-! ### Tokens and strings -/

/-- What a number token can start with, and what it consists of. -/
def isNumberStart (c : UInt8) : Bool := c == 45 || isDigit c

def isNumberChar (c : UInt8) : Bool := isDigit c || c ∈ [45, 43, 46, 101, 69]

theorem Digits.isNumberChar {text : Bytes} (h : Digits text) :
    ∀ c ∈ text, isNumberChar c = true := by
  intro c hc
  rw [Json.isNumberChar, h.2 c hc, Bool.true_or]

theorem IsNumber.isNumberChar {token : Bytes} (h : IsNumber token) :
    ∀ c ∈ token, isNumberChar c = true := by
  obtain ⟨sign, whole, fraction, exponent, hsign, hwhole, -, hfraction, hexponent⟩ := h
  intro c hc
  simp only [List.mem_append] at hc
  rcases hc with ((hc | hc) | hc) | hc
  · rcases hsign with rfl | rfl
    · cases hc
    · rw [List.mem_singleton.mp hc]
      decide
  · exact hwhole.isNumberChar c hc
  · rcases hfraction with rfl | ⟨digits, hdigits, rfl⟩
    · cases hc
    · rcases List.mem_cons.mp hc with rfl | hc
      · decide
      · exact hdigits.isNumberChar c hc
  · rcases hexponent with rfl | ⟨e, sign', digits, he, hsign', hdigits, rfl⟩
    · cases hc
    · simp only [List.mem_append, List.mem_cons] at hc
      have hletters : ∀ e ∈ ([101, 69] : Bytes), Json.isNumberChar e = true := by decide
      have hsigns : ∀ sign ∈ ([[], [43], [45]] : List Bytes), ∀ c ∈ sign,
          Json.isNumberChar c = true := by decide
      rcases hc with (rfl | hc) | hc
      · exact hletters c he
      · exact hsigns sign' hsign' c hc
      · exact hdigits.isNumberChar c hc

/-- A number token starts with a sign or a digit. -/
theorem IsNumber.exists_cons {token : Bytes} (h : IsNumber token) :
    ∃ c rest, token = c :: rest ∧ isNumberStart c = true := by
  obtain ⟨sign, whole, fraction, exponent, hsign, hwhole, -, -, -⟩ := h
  rcases hsign with rfl | rfl
  · obtain ⟨c, rest, rfl⟩ := List.exists_cons_of_ne_nil hwhole.1
    refine ⟨c, rest ++ fraction ++ exponent, rfl, ?_⟩
    rw [isNumberStart, hwhole.2 c List.mem_cons_self, Bool.or_true]
  · exact ⟨45, whole ++ fraction ++ exponent, rfl, rfl⟩

end Json
