import AccessoryController.CompanionProtocol.CatalogExport
import AccessoryController.Replay.ValidUtf8

/-!
# The strings of the wire are UTF-8

The catalogue export and the client frames of a replay check their texts with scanners of their
own. One puts the code point together and compares it with the bounds of its form; the other one
bounds the second byte. They accept the same texts, and these are the well-formed ones.

## Main results

* `isCharacter_iff`: the forms of a character are the encoded characters
* `codePoint_iff`: the bounds of a code point are the bounds of its second byte
* `valid_utf8_exact`: both scanners accept exactly the well-formed texts
-/

namespace AccessoryController.CompanionProtocol

open Replay (continuationOf validContinuation continuationOf_cases continuationOf_eq)
open Utf8

/-- A character of a form has a lead byte that announces its other bytes, and these are in the
bounds. -/
theorem announced {bytes : List UInt8} (character : IsCharacter bytes) :
    ∃ lead rest low high, bytes = lead :: rest ∧
      continuationOf lead = some (rest.length, low, high) ∧
      validContinuation low high rest = true := by
  have second : (0x80 : UInt8).toNat = 0x80 ∧ (0xBF : UInt8).toNat = 0xBF := by decide
  obtain ⟨form, mem, lies⟩ := character
  simp only [forms, List.mem_cons, List.not_mem_nil, or_false] at mem
  rcases mem with rfl | rfl | rfl | rfl | rfl | rfl | rfl | rfl | rfl <;>
    simp only [List.forall₂_cons_left_iff, List.forall₂_nil_left_iff, Lies, tail] at lies
  · obtain ⟨lead, -, first, rfl, rfl⟩ := lies
    exact ⟨lead, [], _, _, rfl, (continuationOf_eq lead).1 (by omega), rfl⟩
  · obtain ⟨lead, -, first, ⟨b, -, hb, rfl, rfl⟩, rfl⟩ := lies
    refine ⟨lead, [b], _, _, rfl, (continuationOf_eq lead).2.1 (by omega), ?_⟩
    rw [Replay.validContinuation_cons]
    exact ⟨by omega, rfl⟩
  -- The forms of three bytes, and then those of four.
  iterate 4
    obtain ⟨lead, -, first, ⟨b, -, hb, ⟨c, -, hc, rfl, rfl⟩, rfl⟩, rfl⟩ := lies
    refine ⟨lead, [b, c], _, _, rfl, (continuationOf_eq lead).2.2.1 (by omega), ?_⟩
    rw [Replay.validContinuation_cons, Replay.validContinuation_cons]
    refine ⟨?_, by omega, rfl⟩
    split <;> split <;> simp only [UInt8.reduceToNat] <;> omega
  all_goals
    obtain ⟨lead, -, first, ⟨b, -, hb, ⟨c, -, hc, ⟨d, -, hd, rfl, rfl⟩, rfl⟩, rfl⟩, rfl⟩ := lies
    refine ⟨lead, [b, c, d], _, _, rfl, (continuationOf_eq lead).2.2.2 (by omega), ?_⟩
    rw [Replay.validContinuation_cons, Replay.validContinuation_cons,
      Replay.validContinuation_cons]
    refine ⟨?_, by omega, by omega, rfl⟩
    split <;> split <;> simp only [UInt8.reduceToNat] <;> omega

/-- The other bytes of a character in the bounds of its lead byte have one of the forms. -/
theorem isCharacter_of_announced {lead low high : UInt8} {rest : List UInt8}
    (known : continuationOf lead = some (rest.length, low, high))
    (valid : validContinuation low high rest = true) : IsCharacter (lead :: rest) := by
  have second : (0x80 : UInt8).toNat = 0x80 ∧ (0xBF : UInt8).toNat = 0xBF := by decide
  rcases continuationOf_cases known with ⟨length, hlead⟩ | ⟨length, hlead⟩ | ⟨length, hlead⟩ |
    ⟨length, hlead⟩
  · obtain rfl := List.length_eq_zero_iff.mp length
    exact ⟨[(0x00, 0x7F)], by decide, .cons ⟨Nat.zero_le _, by omega⟩ .nil⟩
  · obtain ⟨b, rfl⟩ := List.length_eq_one_iff.mp length
    rw [Replay.validContinuation_cons] at valid
    exact ⟨[(0xC2, 0xDF), tail], by decide,
      .cons ⟨by omega, by omega⟩ (.cons ⟨by simp only [tail]; omega,
        by simp only [tail]; omega⟩ .nil)⟩
  · obtain ⟨b, c, rfl⟩ := List.length_eq_two.mp length
    rw [Replay.validContinuation_cons, Replay.validContinuation_cons] at valid
    have form (range second : ℕ × ℕ) (mem : [range, second, tail] ∈ forms)
        (first : range.1 ≤ lead.toNat ∧ lead.toNat ≤ range.2)
        (next : second.1 ≤ b.toNat ∧ b.toNat ≤ second.2) : IsCharacter [lead, b, c] :=
      ⟨_, mem, .cons first (.cons next (.cons ⟨by simp only [tail]; omega,
        by simp only [tail]; omega⟩ .nil))⟩
    -- The least lead byte leaves out the overlong forms, another one the surrogates.
    rcases (by omega : lead.toNat = 0xE0 ∨ 0xE1 ≤ lead.toNat ∧ lead.toNat ≤ 0xEC ∨
      lead.toNat = 0xED ∨ 0xEE ≤ lead.toNat) with h | h | h | h
    · exact form (0xE0, 0xE0) (0xA0, 0xBF) (by decide) (by omega) (by omega)
    · exact form (0xE1, 0xEC) tail (by decide) (by omega) (by simp only [tail]; omega)
    · exact form (0xED, 0xED) (0x80, 0x9F) (by decide) (by omega) (by omega)
    · exact form (0xEE, 0xEF) tail (by decide) (by omega) (by simp only [tail]; omega)
  · obtain ⟨b, c, d, rfl⟩ := List.length_eq_three.mp length
    rw [Replay.validContinuation_cons, Replay.validContinuation_cons,
      Replay.validContinuation_cons] at valid
    have form (range second : ℕ × ℕ) (mem : [range, second, tail, tail] ∈ forms)
        (first : range.1 ≤ lead.toNat ∧ lead.toNat ≤ range.2)
        (next : second.1 ≤ b.toNat ∧ b.toNat ≤ second.2) : IsCharacter [lead, b, c, d] :=
      ⟨_, mem, .cons first (.cons next (.cons ⟨by simp only [tail]; omega,
        by simp only [tail]; omega⟩ (.cons ⟨by simp only [tail]; omega,
          by simp only [tail]; omega⟩ .nil)))⟩
    -- The last lead byte leaves out what lies past the last character.
    rcases (by omega : lead.toNat = 0xF0 ∨ 0xF1 ≤ lead.toNat ∧ lead.toNat ≤ 0xF3 ∨
      lead.toNat = 0xF4) with h | h | h
    · exact form (0xF0, 0xF0) (0x90, 0xBF) (by decide) (by omega) (by omega)
    · exact form (0xF1, 0xF3) tail (by decide) (by omega) (by simp only [tail]; omega)
    · exact form (0xF4, 0xF4) (0x80, 0x8F) (by decide) (by omega) (by omega)

/-- **The forms of a character** are the encoded characters. -/
theorem isCharacter_iff (bytes : List UInt8) :
    IsCharacter bytes ↔ ∃ c, String.utf8EncodeChar c = bytes := by
  constructor
  · intro character
    obtain ⟨lead, rest, low, high, rfl, known, valid⟩ := announced character
    exact Replay.exists_char known valid
  · rintro ⟨c, rfl⟩
    obtain ⟨lead, rest, low, high, bytes, known, valid⟩ := Replay.valid_char c
    rw [bytes]
    exact isCharacter_of_announced known valid

/-! ### The two scanners -/

/-- A lead byte that the frames refuse has no form in the catalogue. -/
theorem utf8Form_none {lead : UInt8} (unknown : continuationOf lead = none) :
    0x7f < lead.toNat ∧ utf8Form lead.toNat = none := by
  obtain ⟨one, two, three, four⟩ := continuationOf_eq lead
  rw [unknown] at one two three four
  have notOne : ¬ lead.toNat < 0x80 := fun h => nomatch one h
  have notTwo : ¬ (0xC2 ≤ lead.toNat ∧ lead.toNat ≤ 0xDF) := fun h => nomatch two h
  have notThree : ¬ (0xE0 ≤ lead.toNat ∧ lead.toNat ≤ 0xEF) := fun h => nomatch three h
  have notFour : ¬ (0xF0 ≤ lead.toNat ∧ lead.toNat ≤ 0xF4) := fun h => nomatch four h
  exact ⟨by omega, by rw [utf8Form, if_neg notTwo, if_neg notThree, if_neg notFour]⟩

/-- The code point of the catalogue in bounds. -/
def Bounded (codePoint minimum : ℕ) : Prop :=
  ¬ (codePoint < minimum ∨ 0x10ffff < codePoint ∨ (0xd800 ≤ codePoint ∧ codePoint ≤ 0xdfff))

/-- A continuation byte adds six bits. -/
theorem codePoint_cons {start minimum : ℕ} {byte : UInt8} {rest : List UInt8} :
    (∃ codePoint, utf8CodePoint start (byte :: rest) = some codePoint ∧
        Bounded codePoint minimum) ↔
      byte.toNat / 0x40 = 2 ∧ ∃ codePoint,
        utf8CodePoint (start * 0x40 + byte.toNat % 0x40) rest = some codePoint ∧
          Bounded codePoint minimum := by
  rw [utf8CodePoint]
  split
  · rename_i other
    exact ⟨nofun, fun h => absurd h.1 other⟩
  · rename_i continued
    exact ⟨fun h => ⟨not_not.mp continued, h⟩, fun h => h.2⟩

theorem codePoint_nil {start minimum : ℕ} :
    (∃ codePoint, utf8CodePoint start [] = some codePoint ∧ Bounded codePoint minimum) ↔
      Bounded start minimum :=
  ⟨fun ⟨_, same, bounded⟩ => Option.some.inj same ▸ bounded, fun bounded => ⟨start, rfl, bounded⟩⟩

/-- **The bounds of a code point** are the bounds of its second byte. -/
theorem codePoint_iff {lead low high : UInt8} {continuation : ℕ}
    (known : continuationOf lead = some (continuation, low, high)) (wide : 0x7f < lead.toNat) :
    ∃ start minimum, utf8Form lead.toNat = some (start, minimum, continuation) ∧
      ∀ rest : List UInt8, rest.length = continuation →
        ((∃ codePoint, utf8CodePoint start rest = some codePoint ∧ Bounded codePoint minimum) ↔
          validContinuation low high rest = true) := by
  have second : (0x80 : UInt8).toNat = 0x80 ∧ (0xBF : UInt8).toNat = 0xBF := by decide
  rcases continuationOf_cases known with ⟨rfl, hlead⟩ | ⟨rfl, hlead⟩ | ⟨rfl, hlead⟩ | ⟨rfl, hlead⟩
  · omega
  · refine ⟨_, _, if_pos (by omega), fun rest length => ?_⟩
    obtain ⟨b, rfl⟩ := List.length_eq_one_iff.mp length
    rw [codePoint_cons, codePoint_nil, Replay.validContinuation_cons, Bounded]
    simp only [validContinuation, and_true]
    omega
  · refine ⟨_, _, (if_neg (by omega)).trans (if_pos (by omega)), fun rest length => ?_⟩
    obtain ⟨b, c, rfl⟩ := List.length_eq_two.mp length
    rw [codePoint_cons, codePoint_cons, codePoint_nil, Replay.validContinuation_cons,
      Replay.validContinuation_cons, Bounded]
    simp only [validContinuation, and_true]
    omega
  · refine ⟨_, _, (if_neg (by omega)).trans ((if_neg (by omega)).trans (if_pos (by omega))),
      fun rest length => ?_⟩
    obtain ⟨b, c, d, rfl⟩ := List.length_eq_three.mp length
    rw [codePoint_cons, codePoint_cons, codePoint_cons, codePoint_nil,
      Replay.validContinuation_cons, Replay.validContinuation_cons,
      Replay.validContinuation_cons, Bounded]
    simp only [validContinuation, and_true]
    omega

/-- One round of the catalogue for a lead byte above the ASCII range. -/
theorem validUtf8Loop_wide {fuel : ℕ} {lead : UInt8} {start minimum continuation : ℕ}
    (wide : 0x7f < lead.toNat) (form : utf8Form lead.toNat = some (start, minimum, continuation))
    (rest : List UInt8) :
    validUtf8Loop (fuel + 1) (lead :: rest) = true ↔ continuation ≤ rest.length ∧
      (∃ codePoint, utf8CodePoint start (rest.take continuation) = some codePoint ∧
        Bounded codePoint minimum) ∧ validUtf8Loop fuel (rest.drop continuation) = true := by
  rw [validUtf8Loop, if_neg (Nat.not_le_of_lt wide), form]
  dsimp only
  split
  · rename_i short
    exact ⟨nofun, fun h => absurd h.1 (Nat.not_le_of_lt short)⟩
  · rename_i long
    rcases utf8CodePoint start (rest.take continuation) with _ | codePoint
    · exact ⟨nofun, fun ⟨_, ⟨_, failed, _⟩, _⟩ => nomatch failed⟩
    · dsimp only
      split
      · rename_i outside
        exact ⟨nofun, fun ⟨_, ⟨_, same, bounded⟩, _⟩ =>
          absurd outside (Option.some.inj same ▸ bounded)⟩
      · rename_i bounded
        exact ⟨fun h => ⟨Nat.le_of_not_lt long, ⟨_, rfl, bounded⟩, h⟩, fun h => h.2.2⟩

/-- **The scanners agree** on a text, with a round for each of its bytes. -/
theorem validUtf8Loop_eq {fuel : ℕ} {text : List UInt8} (enough : text.length ≤ fuel) :
    validUtf8Loop fuel text = Replay.validUtf8 text := by
  induction fuel generalizing text with
  | zero =>
    obtain rfl := List.length_eq_zero_iff.mp (Nat.le_zero.mp enough)
    rw [validUtf8Loop, Replay.validUtf8]
  | succ fuel ih =>
    rcases text with _ | ⟨lead, rest⟩
    · rw [validUtf8Loop, Replay.validUtf8]
    have shorter (n : ℕ) : (rest.drop n).length ≤ fuel := by
      rw [List.length_cons] at enough
      rw [List.length_drop]
      omega
    rcases known : continuationOf lead with _ | ⟨continuation, low, high⟩
    · obtain ⟨wide, form⟩ := utf8Form_none known
      rw [validUtf8Loop, if_neg (Nat.not_le_of_lt wide), form, Replay.validUtf8, known]
    rw [Bool.eq_iff_iff, Replay.validUtf8_cons known]
    by_cases wide : 0x7f < lead.toNat
    · obtain ⟨start, minimum, form, bounds⟩ := codePoint_iff known wide
      rw [validUtf8Loop_wide wide form, ih (shorter continuation)]
      refine and_congr_right fun long => and_congr_left fun _ => bounds _ ?_
      exact List.length_take_of_le long
    · -- a character of one byte
      have one := (continuationOf_eq lead).1 (by omega)
      obtain ⟨rfl, rfl, rfl⟩ : continuation = 0 ∧ low = 0x80 ∧ high = 0xBF := by
        rw [known] at one
        cases one
        exact ⟨rfl, rfl, rfl⟩
      have same : validUtf8Loop fuel rest = Replay.validUtf8 rest := ih (shorter 0)
      rw [List.drop_zero, validUtf8Loop, if_pos (Nat.le_of_not_lt wide), same]
      exact ⟨fun h => ⟨Nat.zero_le _, rfl, h⟩, fun h => h.2.2⟩

/-- **The strings of the wire are UTF-8**: the scanner of the catalogue export accepts exactly the
well-formed texts, which are those that encode characters, and so does that of the frames. -/
theorem valid_utf8_exact (text : List UInt8) :
    (validUtf8 text = true ↔ WellFormed text) ∧
      (WellFormed text ↔ ∃ chars, text = encode chars) ∧
      Replay.validUtf8 text = validUtf8 text := by
  have agree : validUtf8 text = Replay.validUtf8 text := validUtf8Loop_eq (Nat.le_refl _)
  have encoded := wellFormed_iff isCharacter_iff text
  exact ⟨by rw [agree, Replay.validUtf8_iff, encoded], encoded, agree.symm⟩

end AccessoryController.CompanionProtocol
