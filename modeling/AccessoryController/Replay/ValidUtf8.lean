import AccessoryController.Library.Utf8
import AccessoryController.Replay.ClientFrames

/-!
# The check of a text

The check accepts exactly the texts that encode some characters: the bounds of the continuation
bytes leave out the overlong forms, the surrogates and what lies past the last character.

## Main results

* `exists_char`: a lead byte with its continuation bytes is a character
* `valid_char`: the bytes of a character pass the check
* `validUtf8_iff`: the texts that the check accepts
-/

namespace AccessoryController.Replay

/-- A Unicode scalar value is a character. -/
theorem char_of_scalar {v : ℕ} (scalar : v < 0xD800 ∨ 0xDFFF < v ∧ v < 0x110000) :
    ∃ c : Char, c.val.toNat = v := by
  have small : (UInt32.ofNat v).toNat = v := by
    rw [UInt32.toNat_ofNat', Nat.mod_eq_of_lt (by omega)]
  refine ⟨⟨UInt32.ofNat v, ?_⟩, small⟩
  rw [UInt32.isValidChar, small]
  exact scalar

/-- The classes of lead bytes. -/
theorem continuationOf_cases {lead low high : UInt8} {continuation : ℕ}
    (known : continuationOf lead = some (continuation, low, high)) :
    (continuation = 0 ∧ lead.toNat < 0x80) ∨
    (continuation = 1 ∧ 0xC2 ≤ lead.toNat ∧ lead.toNat ≤ 0xDF ∧
      low.toNat = 0x80 ∧ high.toNat = 0xBF) ∨
    (continuation = 2 ∧ 0xE0 ≤ lead.toNat ∧ lead.toNat ≤ 0xEF ∧
      (lead.toNat = 0xE0 → low.toNat = 0xA0) ∧ (lead.toNat ≠ 0xE0 → low.toNat = 0x80) ∧
      (lead.toNat = 0xED → high.toNat = 0x9F) ∧ (lead.toNat ≠ 0xED → high.toNat = 0xBF)) ∨
    (continuation = 3 ∧ 0xF0 ≤ lead.toNat ∧ lead.toNat ≤ 0xF4 ∧
      (lead.toNat = 0xF0 → low.toNat = 0x90) ∧ (lead.toNat ≠ 0xF0 → low.toNat = 0x80) ∧
      (lead.toNat = 0xF4 → high.toNat = 0x8F) ∧ (lead.toNat ≠ 0xF4 → high.toNat = 0xBF)) := by
  have same : ∀ b : UInt8, lead = b ↔ lead.toNat = b.toNat := fun b => UInt8.toNat_inj.symm
  unfold continuationOf at known
  simp only [UInt8.lt_iff_toNat_lt, UInt8.le_iff_toNat_le, same] at known
  repeat' split at known
  all_goals cases known
  all_goals
    simp only [UInt8.reduceToNat, true_and, and_true, implies_true] at *
    omega

theorem validContinuation_cons {low high byte : UInt8} {rest : List UInt8} :
    validContinuation low high (byte :: rest) = true ↔
      (low.toNat ≤ byte.toNat ∧ byte.toNat ≤ high.toNat) ∧
        validContinuation 0x80 0xBF rest = true := by
  simp only [validContinuation, UInt8.lt_iff_toNat_lt]
  split
  · simp only [Bool.false_eq_true, false_iff]
    omega
  · rename_i inside
    rw [iff_and_self]
    intro _
    omega

/-- **A lead byte with its continuation bytes is a character.** -/
theorem exists_char {lead low high : UInt8} {rest : List UInt8}
    (known : continuationOf lead = some (rest.length, low, high))
    (valid : validContinuation low high rest = true) :
    ∃ c : Char, String.utf8EncodeChar c = lead :: rest := by
  have byte : ∀ {b : UInt8} {n : ℕ}, n = b.toNat → UInt8.ofNat n = b := by
    rintro b n rfl
    exact UInt8.ofNat_toNat
  rcases continuationOf_cases known with ⟨length, hlead⟩ | ⟨length, hlead⟩ | ⟨length, hlead⟩ |
    ⟨length, hlead⟩
  · obtain rfl := List.length_eq_zero_iff.mp length
    obtain ⟨c, hc⟩ := @char_of_scalar lead.toNat (by omega)
    refine ⟨c, ?_⟩
    simp only [String.utf8EncodeChar, hc]
    rw [if_pos (by omega), byte rfl]
  · obtain ⟨a, rfl⟩ := List.length_eq_one_iff.mp length
    rw [validContinuation_cons] at valid
    obtain ⟨c, hc⟩ := @char_of_scalar ((lead.toNat - 0xC0) * 64 + (a.toNat - 0x80)) (by omega)
    refine ⟨c, ?_⟩
    simp only [String.utf8EncodeChar, hc]
    rw [if_neg (by omega), if_pos (by omega), byte (b := lead) (by omega), byte (b := a) (by omega)]
  · obtain ⟨a, b, rfl⟩ := List.length_eq_two.mp length
    rw [validContinuation_cons, validContinuation_cons] at valid
    have second : (0x80 : UInt8).toNat = 128 ∧ (0xBF : UInt8).toNat = 191 := by decide
    obtain ⟨c, hc⟩ := @char_of_scalar
      ((lead.toNat - 0xE0) * 4096 + (a.toNat - 0x80) * 64 + (b.toNat - 0x80)) (by omega)
    refine ⟨c, ?_⟩
    simp only [String.utf8EncodeChar, hc]
    rw [if_neg (by omega), if_neg (by omega), if_pos (by omega), byte (b := lead) (by omega),
      byte (b := a) (by omega), byte (b := b) (by omega)]
  · obtain ⟨a, b, d, rfl⟩ := List.length_eq_three.mp length
    rw [validContinuation_cons, validContinuation_cons, validContinuation_cons] at valid
    have second : (0x80 : UInt8).toNat = 128 ∧ (0xBF : UInt8).toNat = 191 := by decide
    obtain ⟨c, hc⟩ := @char_of_scalar ((lead.toNat - 0xF0) * 262144 + (a.toNat - 0x80) * 4096 +
      (b.toNat - 0x80) * 64 + (d.toNat - 0x80)) (by omega)
    refine ⟨c, ?_⟩
    simp only [String.utf8EncodeChar, hc]
    rw [if_neg (by omega), if_neg (by omega), if_neg (by omega), byte (b := lead) (by omega),
      byte (b := a) (by omega), byte (b := b) (by omega), byte (b := d) (by omega)]

/-- What a lead byte of each class says. -/
theorem continuationOf_eq (lead : UInt8) :
    (lead.toNat < 0x80 → continuationOf lead = some (0, 0x80, 0xBF)) ∧
    (0xC2 ≤ lead.toNat ∧ lead.toNat ≤ 0xDF → continuationOf lead = some (1, 0x80, 0xBF)) ∧
    (0xE0 ≤ lead.toNat ∧ lead.toNat ≤ 0xEF → continuationOf lead =
      some (2, if lead.toNat = 0xE0 then 0xA0 else 0x80,
        if lead.toNat = 0xED then 0x9F else 0xBF)) ∧
    (0xF0 ≤ lead.toNat ∧ lead.toNat ≤ 0xF4 → continuationOf lead =
      some (3, if lead.toNat = 0xF0 then 0x90 else 0x80,
        if lead.toNat = 0xF4 then 0x8F else 0xBF)) := by
  have same : ∀ b : UInt8, lead = b ↔ lead.toNat = b.toNat := fun b => UInt8.toNat_inj.symm
  unfold continuationOf
  simp only [UInt8.lt_iff_toNat_lt, UInt8.le_iff_toNat_le, same, UInt8.reduceToNat]
  refine ⟨fun h => ?_, fun h => ?_, fun h => ?_, fun h => ?_⟩
  · rw [if_pos h]
  · rw [if_neg (by omega), if_pos h]
  · rw [if_neg (by omega), if_neg (by omega), if_pos h]
  · rw [if_neg (by omega), if_neg (by omega), if_neg (by omega), if_pos h]

/-- **The bytes of a character pass the check.** -/
theorem valid_char (c : Char) : ∃ lead rest low high, String.utf8EncodeChar c = lead :: rest ∧
    continuationOf lead = some (rest.length, low, high) ∧
    validContinuation low high rest = true := by
  have scalar : c.val.toNat < 0xD800 ∨ 0xDFFF < c.val.toNat ∧ c.val.toNat < 0x110000 := c.valid
  have byte : ∀ n, (UInt8.ofNat n).toNat = n % 2 ^ 8 := fun n => UInt8.toNat_ofNat'
  have bounds : (0x80 : UInt8).toNat = 128 ∧ (0xBF : UInt8).toNat = 191 := by decide
  simp only [String.utf8EncodeChar]
  split_ifs with one two three
  · exact ⟨_, [], _, _, rfl, (continuationOf_eq _).1 (by rw [byte]; omega), rfl⟩
  · refine ⟨_, [_], _, _, rfl, (continuationOf_eq _).2.1 (by rw [byte]; omega), ?_⟩
    rw [validContinuation_cons, byte, bounds.1, bounds.2]
    exact ⟨by omega, rfl⟩
  · refine ⟨_, [_, _], _, _, rfl, (continuationOf_eq _).2.2.1 (by rw [byte]; omega), ?_⟩
    rw [validContinuation_cons, validContinuation_cons, byte, byte, byte, bounds.1, bounds.2]
    refine ⟨?_, by omega, rfl⟩
    -- no overlong form and no surrogate
    split <;> split <;> simp only [UInt8.reduceToNat] <;> omega
  · refine ⟨_, [_, _, _], _, _, rfl, (continuationOf_eq _).2.2.2 (by rw [byte]; omega), ?_⟩
    rw [validContinuation_cons, validContinuation_cons, validContinuation_cons, byte, byte, byte,
      byte, bounds.1, bounds.2]
    refine ⟨?_, by omega, by omega, rfl⟩
    -- no overlong form, and nothing past the last character
    split <;> split <;> simp only [UInt8.reduceToNat] <;> omega

theorem validUtf8_cons {lead low high : UInt8} {continuation : ℕ}
    (known : continuationOf lead = some (continuation, low, high)) (rest : List UInt8) :
    validUtf8 (lead :: rest) = true ↔ continuation ≤ rest.length ∧
      validContinuation low high (rest.take continuation) = true ∧
      validUtf8 (rest.drop continuation) = true := by
  rw [validUtf8, known]
  dsimp only
  split
  · simp only [Bool.false_eq_true, false_iff]
    omega
  · split
    · rename_i invalid
      simp [invalid]
    · rename_i room valid
      simp [valid, Nat.le_of_not_lt room]

/-- **The texts that the check accepts** encode some characters. -/
theorem validUtf8_iff (text : List UInt8) :
    validUtf8 text = true ↔ ∃ chars, text = Utf8.encode chars := by
  constructor
  · induction hlength : text.length using Nat.strongRecOn generalizing text with
    | _ n ih =>
      intro valid
      cases text with
      | nil => exact ⟨[], rfl⟩
      | cons lead rest =>
        cases known : continuationOf lead with
        | none => rw [validUtf8, known] at valid; cases valid
        | some bounds =>
          obtain ⟨continuation, low, high⟩ := bounds
          obtain ⟨room, within, later⟩ := (validUtf8_cons known rest).mp valid
          have taken : (rest.take continuation).length = continuation := by
            rw [List.length_take]
            omega
          obtain ⟨c, hc⟩ := exists_char (taken ▸ known) within
          obtain ⟨chars, hchars⟩ := ih _ (by
            rw [← hlength, List.length_drop, List.length_cons]
            omega) (rest.drop continuation) rfl later
          refine ⟨c :: chars, ?_⟩
          rw [Utf8.encode_cons, hc, ← hchars, List.cons_append, List.take_append_drop]
  · rintro ⟨chars, rfl⟩
    induction chars with
    | nil => rw [Utf8.encode_nil, validUtf8]
    | cons c chars ih =>
      obtain ⟨lead, rest, low, high, hc, known, within⟩ := valid_char c
      rw [Utf8.encode_cons, hc, List.cons_append, validUtf8_cons known]
      refine ⟨?_, ?_, ?_⟩
      · rw [List.length_append]
        omega
      · rwa [List.take_left]
      · rwa [List.drop_left]

end AccessoryController.Replay
