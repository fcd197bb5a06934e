import Mathlib.Data.List.Forall2
import Mathlib.Data.List.GetD

/-!
# Character boundaries in UTF-8 text

The bytes of a character are a lead byte and continuation bytes, and only these continue a
character. A position of a text is therefore a character boundary exactly when the byte there does
not continue a character, so that a cut at any position can be moved back to a boundary.

## Main definitions

* `Utf8.continues`: the bytes that continue a character
* `Utf8.encode chars`: the text of some characters
* `Utf8.Boundary chars p`: position `p` lies between two characters
* `Utf8.backUp text n`: the last position up to `n` whose byte does not continue a character
* `Utf8.forms`: the forms of a character, each by the ranges of its bytes
* `Utf8.IsCharacter`: the bytes of a character
* `Utf8.WellFormed`: the well-formed texts

## Main results

* `Utf8.boundary_iff`: the boundaries inside a text
* `Utf8.backUp_greatest`: backing up finds the last boundary
* `Utf8.wellFormed_iff`: a well-formed text encodes some characters, if each form does
-/

namespace Utf8

/-- A byte of the form `10xxxxxx`. -/
def continues (b : UInt8) : Bool := b &&& 0xC0 == 0x80

theorem continues_iff (b : UInt8) : continues b = true ↔ 128 ≤ b.toNat ∧ b.toNat < 192 := by
  have all : ∀ n < 256, continues (UInt8.ofNat n) = true ↔ 128 ≤ n ∧ n < 192 := by
    decide +kernel
  simpa using all b.toNat b.toNat_lt

/-- The bytes of some characters. -/
def encode (chars : List Char) : List UInt8 := chars.flatMap String.utf8EncodeChar

@[simp] theorem encode_nil : encode [] = [] := rfl

@[simp] theorem encode_cons (c : Char) (chars : List Char) :
    encode (c :: chars) = String.utf8EncodeChar c ++ encode chars := rfl

variable (chars : List Char)

theorem encode_append (chars' : List Char) :
    encode (chars ++ chars') = encode chars ++ encode chars' := List.flatMap_append

/-- The first characters of a text are the first bytes of its encoding. -/
theorem take_encode (k : ℕ) :
    (encode chars).take (encode (chars.take k)).length = encode (chars.take k) := by
  have parts : encode chars = encode (chars.take k) ++ encode (chars.drop k) := by
    rw [← encode_append, List.take_append_drop]
  rw [parts, List.take_left]

theorem length_encode_take_le (k : ℕ) : (encode (chars.take k)).length ≤ (encode chars).length := by
  rw [← take_encode chars k]
  exact List.length_take_le' _ _

/-- A character is a lead byte and bytes that continue it. -/
theorem utf8EncodeChar_shape (c : Char) : ∃ lead rest, String.utf8EncodeChar c = lead :: rest ∧
    continues lead = false ∧ ∀ b ∈ rest, continues b = true := by
  have notContinues : ∀ b : UInt8, b.toNat < 128 ∨ 192 ≤ b.toNat → continues b = false := by
    intro b h
    rw [Bool.eq_false_iff, ne_eq, continues_iff]
    omega
  have bound : c.val.toNat < 0x110000 := by
    have := c.valid
    omega
  simp only [String.utf8EncodeChar]
  split_ifs with one two three
  · refine ⟨_, [], rfl, notContinues _ (.inl ?_), by simp⟩
    rw [UInt8.toNat_ofNat']
    omega
  all_goals
    refine ⟨_, _, rfl, notContinues _ (.inr ?_), ?_⟩
    · rw [UInt8.toNat_ofNat']
      omega
    · intro b mem
      simp only [List.mem_cons, List.not_mem_nil, or_false] at mem
      rw [continues_iff]
      rcases mem with rfl | rfl | rfl <;> rw [UInt8.toNat_ofNat'] <;> omega

/-- A position between two characters, or at an end. -/
def Boundary (chars : List Char) (p : ℕ) : Prop := ∃ k, p = (encode (chars.take k)).length

theorem boundary_zero : Boundary chars 0 := ⟨0, rfl⟩

/-- A boundary behind a first character is one of the text that follows. -/
theorem boundary_cons {c : Char} {chars : List Char} {q : ℕ} :
    Boundary (c :: chars) ((String.utf8EncodeChar c).length + q) ↔ Boundary chars q := by
  constructor
  · rintro ⟨k, h⟩
    cases k with
    | zero =>
      have := List.length_pos_iff.mpr (@String.utf8EncodeChar_ne_nil c)
      rw [List.take_zero, encode_nil, List.length_nil] at h
      omega
    | succ k =>
      refine ⟨k, ?_⟩
      rw [List.take_succ_cons, encode_cons, List.length_append] at h
      omega
  · rintro ⟨k, rfl⟩
    exact ⟨k + 1, by rw [List.take_succ_cons, encode_cons, List.length_append]⟩

/-- **The boundaries inside a text** are the positions whose byte does not continue a character. -/
theorem boundary_iff {chars : List Char} {p : ℕ} (inside : p < (encode chars).length) :
    Boundary chars p ↔ continues ((encode chars).getD p 0) = false := by
  induction chars generalizing p with
  | nil => exact absurd inside (Nat.not_lt_zero p)
  | cons c chars ih =>
    obtain ⟨lead, rest, shape, starts, continued⟩ := utf8EncodeChar_shape c
    rw [encode_cons] at inside ⊢
    by_cases first : p < (String.utf8EncodeChar c).length
    · rw [List.getD_append _ _ _ _ first, shape]
      cases p with
      | zero => simpa [starts] using boundary_zero (c :: chars)
      | succ p =>
        -- Inside the character: its bytes continue it, and no boundary is nearer than its end.
        have inner : p < rest.length := by simpa [shape] using first
        have byte : continues (rest.getD p 0) = true := by
          rw [List.getD_eq_getElem _ _ inner]
          exact continued _ (List.getElem_mem inner)
        rw [List.getD_cons_succ, byte]
        refine iff_of_false ?_ (by simp)
        rintro ⟨k, h⟩
        cases k with
        | zero => simp at h
        | succ k =>
          rw [List.take_succ_cons, encode_cons, List.length_append] at h
          omega
    · obtain ⟨q, rfl⟩ := Nat.exists_eq_add_of_le (Nat.le_of_not_lt first)
      rw [List.length_append] at inside
      rw [boundary_cons, List.getD_append_right _ _ _ _ (Nat.le_add_right _ _),
        Nat.add_sub_cancel_left]
      exact ih (by omega)

/-- The last position up to `n` whose byte does not continue a character, or the start. -/
def backUp (text : List UInt8) : ℕ → ℕ
  | 0 => 0
  | n + 1 => if continues (text.getD (n + 1) 0) then backUp text n else n + 1

theorem backUp_le (text : List UInt8) (n : ℕ) : backUp text n ≤ n := by
  induction n with
  | zero => exact Nat.le_refl 0
  | succ n ih =>
    rw [backUp]
    split_ifs
    · exact Nat.le_succ_of_le ih
    · exact Nat.le_refl _

/-- **Backing up** from a position inside a text finds the last boundary up to it. -/
theorem backUp_greatest {chars : List Char} {n : ℕ} (inside : n < (encode chars).length) :
    Boundary chars (backUp (encode chars) n) ∧
      ∀ p, Boundary chars p → p ≤ n → p ≤ backUp (encode chars) n := by
  induction n with
  | zero => exact ⟨boundary_zero chars, fun p _ le => le⟩
  | succ n ih =>
    obtain ⟨boundary, greatest⟩ := ih (Nat.lt_of_succ_lt inside)
    rw [backUp]
    split_ifs with continued
    · refine ⟨boundary, fun p isBoundary le => greatest p isBoundary ?_⟩
      rcases Nat.lt_or_eq_of_le le with lt | rfl
      · exact Nat.le_of_lt_succ lt
      · rw [boundary_iff inside, continued] at isBoundary
        cases isBoundary
    · refine ⟨(boundary_iff inside).mpr (by simpa using continued), fun p _ le => le⟩

/-! ### The syntax of UTF-8 text

RFC 3629 gives the syntax of a text by the byte ranges of its characters. A text is well formed when
it is a sequence of characters of these forms. The forms leave out the overlong encodings, the
surrogates and what lies past the last character, so they are exactly the encoded characters. -/

/-- `UTF8-tail`. -/
def tail : ℕ × ℕ := (0x80, 0xBF)

/-- `UTF8-1`, `UTF8-2`, and the alternatives of `UTF8-3` and of `UTF8-4`. -/
def forms : List (List (ℕ × ℕ)) :=
  [[(0x00, 0x7F)],
    [(0xC2, 0xDF), tail],
    [(0xE0, 0xE0), (0xA0, 0xBF), tail],
    [(0xE1, 0xEC), tail, tail],
    [(0xED, 0xED), (0x80, 0x9F), tail],
    [(0xEE, 0xEF), tail, tail],
    [(0xF0, 0xF0), (0x90, 0xBF), tail, tail],
    [(0xF1, 0xF3), tail, tail, tail],
    [(0xF4, 0xF4), (0x80, 0x8F), tail, tail]]

/-- A byte in a range. -/
def Lies (range : ℕ × ℕ) (byte : UInt8) : Prop := range.1 ≤ byte.toNat ∧ byte.toNat ≤ range.2

/-- The bytes of a character, in one of its forms. -/
def IsCharacter (bytes : List UInt8) : Prop := ∃ form ∈ forms, List.Forall₂ Lies form bytes

/-- The well-formed texts: any number of characters. -/
inductive WellFormed : List UInt8 → Prop
  | nil : WellFormed []
  | cons {character text : List UInt8} :
    IsCharacter character → WellFormed text → WellFormed (character ++ text)

/-- **A well-formed text encodes some characters**, if each form does. -/
theorem wellFormed_iff
    (characters : ∀ bytes, IsCharacter bytes ↔ ∃ c, String.utf8EncodeChar c = bytes)
    (text : List UInt8) : WellFormed text ↔ ∃ chars, text = encode chars := by
  constructor
  · intro wellFormed
    induction wellFormed with
    | nil => exact ⟨[], rfl⟩
    | cons character _ ih =>
      obtain ⟨c, rfl⟩ := (characters _).mp character
      obtain ⟨chars, rfl⟩ := ih
      exact ⟨c :: chars, rfl⟩
  · rintro ⟨chars, rfl⟩
    induction chars with
    | nil => exact .nil
    | cons c chars ih => exact .cons ((characters _).mpr ⟨c, rfl⟩) ih

end Utf8
