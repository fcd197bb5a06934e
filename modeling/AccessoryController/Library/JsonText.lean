import AccessoryController.Library.Json

/-!
# JSON texts with white space

The grammar of JSON over the same chains of items. White space may stand around every token, a key
may have escapes and a string may have any escape. The text without white space is one of the texts
of its items.

## Main definitions

* `Json.White`, `StringBody`, `Name`: the parts of a text
* `Json.Written`: a text of a chain of items
* `Json.Document`: a text of one item

## Main results

* `Json.written_text`: the text without white space
-/

namespace Json

/-! ### Parts -/

/-- White space. -/
def White (text : Bytes) : Prop := ∀ c ∈ text, c = 32 ∨ c = 9 ∨ c = 10 ∨ c = 13

theorem white_nil : White [] := fun _ hc => absurd hc List.not_mem_nil

theorem White.append {space after : Bytes} (h : White space) (hafter : White after) :
    White (space ++ after) := fun c hc => (List.mem_append.mp hc).elim (h c) (hafter c)

/-- What may stand between the quotes of a string. -/
inductive StringBody : Bytes → Prop
  | nil : StringBody []
  | plain {c : UInt8} {body : Bytes} (hc : IsPlain c) (h : StringBody body) :
      StringBody (c :: body)
  | short {e c : UInt8} {body : Bytes} (hc : (e, c) ∈ shortEscapes) (h : StringBody body) :
      StringBody (backslash :: e :: body)
  | codePoint {digits body : Bytes} (hlength : digits.length = 4)
      (hdigits : ∀ c ∈ digits, (hexValue c).isSome) (h : StringBody body) :
      StringBody (backslash :: 117 :: (digits ++ body))

/-- A spelled string is one of the strings of JSON. -/
theorem Spells.stringBody {body value : Bytes} (h : Spells body value) : StringBody body := by
  induction h with
  | nil => exact .nil
  | plain hc _ ih => exact .plain hc ih
  | short hc _ ih => exact .short hc ih
  | @codePoint high low m n body value hhigh hlow _ _ _ ih =>
    have hdigits : ∀ c ∈ [48, 48, high, low], (hexValue c).isSome := by
      intro c hc
      simp only [List.mem_cons, List.not_mem_nil, or_false] at hc
      rcases hc with rfl | rfl | rfl | rfl
      · rfl
      · rfl
      · rw [hhigh]
        rfl
      · rw [hlow]
        rfl
    exact .codePoint rfl hdigits ih

/-- What stands before the value of an item: in an object its key and a colon. -/
inductive Name : (keyed : Bool) → (key text : Bytes) → Prop
  | none : Name false [] []
  | key {key between after : Bytes} (hkey : StringBody key) (hbetween : White between)
      (hafter : White after) :
      Name true key (quote :: (key ++ quote :: (between ++ colon :: after)))

/-- The token of a kind is one of JSON. What a string stands for is left to its reader. -/
def Kind.Written : Kind → Prop
  | number token => IsNumber token
  | string body _ => StringBody body
  | _ => True

/-! ### Texts -/

/-- A text of a chain, in an object or in an array, from its first item or from a later one. -/
inductive Written : Items → (keyed first : Bool) → Bytes → Prop
  | nil {keyed first : Bool} {space : Bytes} (hspace : White space) :
      Written .nil keyed first space
  | cons {keyed first : Bool} {key : Bytes} {kind : Kind} {inner next : Items}
      {before name innerText after nextText : Bytes}
      (hbefore : White before) (hname : Name keyed key name) (hkind : kind.Written)
      (hscalar : kind.isContainer = false → inner = .nil ∧ innerText = [])
      (hinner : Written inner kind.isObject true innerText) (hafter : White after)
      (hnext : Written next keyed false nextText) :
      Written (.cons key kind inner next) keyed first
        ((if first then [] else [comma]) ++ (before ++ (name ++
          (kind.opening ++ (innerText ++ (kind.closing ++ (after ++ nextText)))))))

/-- A document holds one item. -/
def Document (text : Bytes) (items : Items) : Prop :=
  ∃ kind inner, items = .cons [] kind inner .nil ∧ Written items false true text

/-! ### The text without white space -/

theorem Kind.WellFormed.written {kind : Kind} (h : kind.WellFormed) : kind.Written := by
  cases kind with
  | string body value => exact Spells.stringBody h
  | number token => exact h
  | _ => trivial

theorem IsKey.name {key : Bytes} {keyed : Bool} (h : IsKey key keyed) :
    Name keyed key (if keyed then quote :: key ++ [quote, colon] else []) := by
  cases keyed with
  | false =>
    rw [h.2 rfl]
    exact .none
  | true => exact .key (spells_of_plain h.1).stringBody white_nil white_nil

/-- **The text without white space** is one of the texts of well-formed items. -/
theorem written_text {items : Items} {keyed : Bool} (h : items.WellFormed keyed) (first : Bool) :
    Written items keyed first (items.text keyed first) := by
  induction items generalizing keyed first with
  | nil => exact .nil white_nil
  | cons key kind inner next ihInner ihNext =>
    obtain ⟨⟨hkey, hkind, hscalar⟩, hinner, hnext⟩ := h
    have hempty : kind.isContainer = false →
        inner = .nil ∧ inner.text kind.isObject true = [] := by
      intro hkind
      rw [hscalar hkind]
      exact ⟨rfl, rfl⟩
    -- no white space stands before the key and after the value
    exact .cons white_nil hkey.name hkind.written hempty
      (ihInner hinner true) white_nil (ihNext hnext false)

end Json
