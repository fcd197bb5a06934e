import AccessoryController.Library.JsonReader
import AccessoryController.Library.JsonText
import AccessoryController.Replay.PlaybackControl

/-!
# The control messages that are accepted

The reader accepts exactly the JSON objects with the members of a control message, each at most
once, and keeps the source texts of their values. A reader that takes as much as it can is exact
here because what follows a token never goes on with it.

## Main definitions

* `ControlObject`: the members of a control message
* `Commands`, `Rejects`: the members that make a command, and the reasons of a rejection

## Main results

* `readNumber_sound`, `readNumber_complete`, `readField_sound`, `readField_complete`: the tokens and
  the members that are read
* `read_iff`: the texts that the reader accepts
* `control_exact`: the texts that the parser accepts, and the one reason of every other text
-/

namespace AccessoryController.Replay

open scoped Json
open Json (Bytes Items Kind White Written StringBody IsNumber IsPlain Digits EndsNumber)

variable {space rest text : Bytes} {expected : UInt8} {item : Json.Item} {key : Bytes}
  {fields result : ControlFields} {inner : Items} {items : List Json.Item}

namespace ControlReader

/-! ### Characters -/

theorem isSpace_iff (c : UInt8) : isSpace c = true ↔ c = 32 ∨ c = 9 ∨ c = 10 ∨ c = 13 := by
  simp only [isSpace, Bool.or_eq_true, beq_iff_eq, or_assoc]

/-- White space is skipped up to a character that is none. -/
theorem skipSpace_append (white : White space)
    (stops : ∀ c, rest.head? = some c → isSpace c = false) : skipSpace (space ++ rest) = rest := by
  induction space with
  | nil =>
    rcases rest with _ | ⟨c, rest⟩
    · rfl
    · rw [List.nil_append, skipSpace, List.dropWhile_cons_of_neg (by rw [stops c rfl]; decide)]
  | cons c space ih =>
    obtain ⟨first, others⟩ := List.forall_mem_cons.mp white
    rw [List.cons_append, skipSpace, List.dropWhile_cons_of_pos ((isSpace_iff c).mpr first)]
    exact ih others

theorem exists_space (text : Bytes) : ∃ space, White space ∧ text = space ++ skipSpace text :=
  ⟨text.takeWhile isSpace, fun c mem => (isSpace_iff c).mp (List.mem_takeWhile_imp mem),
    (List.takeWhile_append_dropWhile).symm⟩

/-- What is accepted is there. -/
theorem of_accept (accepted : accept expected text = (true, rest)) : text = expected :: rest := by
  rcases text with _ | ⟨c, text⟩
  · cases accepted
  · rw [accept] at accepted
    split at accepted
    · rename_i same
      cases accepted
      rw [same]
    · cases accepted

theorem accept_cons (expected : UInt8) (rest : Bytes) :
    accept expected (expected :: rest) = (true, rest) := if_pos rfl

/-- What is not accepted stays. -/
theorem accept_other (other : text.head? ≠ some expected) :
    accept expected text = (false, text) := by
  rcases text with _ | ⟨c, text⟩
  · rfl
  · exact if_neg fun same => other (congrArg some same)

theorem accept_false (refused : (accept expected text).1 = false) : text.head? ≠ some expected := by
  rintro head
  obtain ⟨rest, rfl⟩ := List.head?_eq_some_iff.mp head
  rw [accept_cons] at refused
  cases refused

/-- A character is taken after white space. -/
theorem consume_append (dark : isSpace expected = false) (white : White space) (rest : Bytes) :
    consume expected (space ++ expected :: rest) = (true, rest) := by
  rw [consume, skipSpace_append white, accept_cons]
  intro c head
  exact Option.some.inj head ▸ dark

theorem of_consume (consumed : consume expected text = (true, rest)) :
    ∃ space, White space ∧ text = space ++ expected :: rest := by
  obtain ⟨space, white, parts⟩ := exists_space text
  exact ⟨space, white, parts.trans (by rw [of_accept consumed])⟩

/-- Another character is left after its white space. -/
theorem consume_other {c : UInt8} (dark : isSpace c = false) (other : c ≠ expected)
    (white : White space) (rest : Bytes) :
    consume expected (space ++ c :: rest) = (false, c :: rest) := by
  rw [consume, skipSpace_append white]
  · exact accept_other fun same => other (Option.some.inj same)
  · intro d head
    exact Option.some.inj head ▸ dark

/-! ### Strings -/

theorem readBody_iff {value : Bytes} : readBody text = some (value, rest) ↔
    text = value ++ Json.quote :: rest ∧ ∀ c ∈ value, IsPlain c := by
  induction text generalizing value with
  | nil =>
    constructor
    · exact nofun
    · rintro ⟨parts, -⟩
      rcases value with _ | _ <;> exact nomatch parts
  | cons c text ih =>
    rw [readBody]
    split
    · rename_i closed
      subst closed
      constructor
      · intro h
        cases h
        exact ⟨rfl, fun _ mem => nomatch mem⟩
      · rintro ⟨parts, plain⟩
        rcases value with _ | ⟨d, value⟩
        · cases parts
          rfl
        · obtain ⟨rfl, -⟩ := List.cons.inj parts
          exact absurd rfl (plain _ List.mem_cons_self).2.1
    rename_i inside
    split
    · rename_i refused
      constructor
      · exact nofun
      rintro ⟨parts, plain⟩
      rcases value with _ | ⟨d, value⟩
      · exact absurd (List.cons.inj parts).1 inside
      · obtain ⟨rfl, -⟩ := List.cons.inj parts
        obtain ⟨printable, -, unescaped⟩ := plain _ List.mem_cons_self
        rcases refused with escape | control
        · exact absurd escape unescaped
        · exact absurd printable (UInt8.not_le.mpr control)
    · rename_i kept
      constructor
      · intro h
        obtain ⟨⟨value', rest'⟩, body, same⟩ := Option.map_eq_some_iff.mp h
        cases same
        obtain ⟨rfl, plain⟩ := ih.mp body
        refine ⟨rfl, List.forall_mem_cons.mpr ⟨⟨?_, inside, fun e => kept (.inl e)⟩, plain⟩⟩
        exact UInt8.not_lt.mp fun control => kept (.inr control)
      · rintro ⟨parts, plain⟩
        rcases value with _ | ⟨d, value⟩
        · exact absurd (List.cons.inj parts).1 inside
        · obtain ⟨rfl, left⟩ := List.cons.inj parts
          have body := ih.mpr ⟨left, fun c mem => plain c (List.mem_cons_of_mem _ mem)⟩
          rw [body]
          rfl

/-- **A string is read** when it stands after white space and needs no escapes. -/
theorem readString_iff {value : Bytes} : readString text = some (value, rest) ↔
    ∃ space, White space ∧ text = space ++ Json.quote :: (value ++ Json.quote :: rest) ∧
      ∀ c ∈ value, IsPlain c := by
  unfold readString
  constructor
  · intro h
    dsimp only at h
    split at h
    · rename_i opened
      obtain ⟨space, white, parts⟩ := of_consume (Prod.ext opened rfl)
      obtain ⟨body, plain⟩ := readBody_iff.mp h
      refine ⟨space, white, ?_, plain⟩
      rw [← body]
      exact parts
    · exact nomatch h
  · rintro ⟨space, white, rfl, plain⟩
    rw [consume_append (by decide) white]
    exact readBody_iff.mpr ⟨rfl, plain⟩

/-! ### Numbers -/

/-- No digit comes next. -/
def NoDigit (rest : Bytes) : Prop := ∀ c, rest.head? = some c → Json.isDigit c = false

theorem digits_sound (taken : digits text = (true, rest)) :
    ∃ run, Digits run ∧ text = run ++ rest := by
  obtain ⟨moved, rfl⟩ := Prod.mk.inj taken
  have parts : text.takeWhile Json.isDigit ++ text.dropWhile Json.isDigit = text :=
    List.takeWhile_append_dropWhile
  refine ⟨text.takeWhile Json.isDigit, ⟨fun empty => ?_, fun c mem => ?_⟩, parts.symm⟩
  · rw [empty, List.nil_append] at parts
    exact of_decide_eq_true moved (congrArg List.length parts)
  · exact List.mem_takeWhile_imp mem

theorem digits_complete {run : Bytes} (all : Digits run) (stops : NoDigit rest) :
    digits (run ++ rest) = (true, rest) := by
  have left : (run ++ rest).dropWhile Json.isDigit = rest := by
    rw [List.dropWhile_append, List.dropWhile_eq_nil_iff.mpr all.2, List.isEmpty_nil, if_pos rfl]
    rcases rest with _ | ⟨c, rest⟩
    · rfl
    · exact List.dropWhile_cons_of_neg (by rw [stops c rfl]; decide)
  have shorter : rest.length ≠ (run ++ rest).length := by
    have := List.length_pos_of_ne_nil all.1
    rw [List.length_append]
    omega
  rw [digits, left]
  exact Prod.ext (decide_eq_true shorter) rfl

/-- Digits without a leading zero. -/
def IsWhole (whole : Bytes) : Prop := Digits whole ∧ (whole.head? = some 48 → whole = [48])

theorem readWhole_sound (taken : readWhole text = (true, rest)) :
    ∃ whole, IsWhole whole ∧ text = whole ++ rest := by
  unfold readWhole at taken
  dsimp only at taken
  split at taken
  · exact ⟨[48], ⟨⟨nofun, by decide⟩, fun _ => rfl⟩, of_accept taken⟩
  · rename_i other
    obtain ⟨run, all, parts⟩ := digits_sound taken
    refine ⟨run, ⟨all, fun zero => ?_⟩, parts⟩
    refine absurd ?_ (accept_false (Bool.eq_false_of_not_eq_true other))
    obtain ⟨tail, rfl⟩ := List.head?_eq_some_iff.mp zero
    rw [parts]
    rfl

theorem readWhole_complete {whole : Bytes} (digitsOnly : IsWhole whole) (stops : NoDigit rest) :
    readWhole (whole ++ rest) = (true, rest) := by
  obtain ⟨all, zero⟩ := digitsOnly
  unfold readWhole
  by_cases head : whole.head? = some 48
  · rw [zero head, List.singleton_append, accept_cons, if_pos rfl]
  · have other : (whole ++ rest).head? ≠ some 48 := by
      rw [List.head?_append_of_ne_nil _ all.1]
      exact head
    rw [accept_other other]
    exact digits_complete all stops

theorem readFraction_sound (taken : readFraction text = (true, rest)) :
    ∃ fraction, Json.IsFraction fraction ∧ text = fraction ++ rest := by
  unfold readFraction at taken
  dsimp only at taken
  split at taken
  · rename_i point
    obtain ⟨run, all, parts⟩ := digits_sound taken
    exact ⟨46 :: run, .inr ⟨run, all, rfl⟩,
      (of_accept (Prod.ext point rfl)).trans (congrArg (46 :: ·) parts)⟩
  · cases taken
    exact ⟨[], .inl rfl, rfl⟩

theorem readFraction_complete {fraction : Bytes} (valid : Json.IsFraction fraction)
    (stops : NoDigit rest) (point : rest.head? ≠ some 46) :
    readFraction (fraction ++ rest) = (true, rest) := by
  unfold readFraction
  rcases valid with rfl | ⟨run, all, rfl⟩
  · rw [List.nil_append, accept_other point]
    rfl
  · rw [List.cons_append, accept_cons]
    exact digits_complete all stops

/-- The sign of an exponent. -/
theorem exists_sign (text : Bytes) : ∃ sign ∈ ([[], [43], [45]] : List Bytes),
    text = sign ++ (if (accept 43 text).1 then (accept 43 text).2 else (accept 45 text).2) := by
  split
  · rename_i plus
    exact ⟨[43], by decide, of_accept (Prod.ext plus rfl)⟩
  · rcases minus : (accept 45 text).1 with _ | _
    · refine ⟨[], by decide, ?_⟩
      rw [accept_other (accept_false minus)]
      rfl
    · exact ⟨[45], by decide, of_accept (Prod.ext minus rfl)⟩

theorem readExponent_sound (taken : readExponent text = (true, rest)) :
    ∃ exponent, Json.IsExponent exponent ∧ text = exponent ++ rest := by
  have marked (e : UInt8) (letter : e ∈ ([101, 69] : Bytes)) (after : Bytes)
      (parts : text = e :: after)
      (run_taken : digits (if (accept 43 after).1 then (accept 43 after).2
        else (accept 45 after).2) = (true, rest)) :
      ∃ exponent, Json.IsExponent exponent ∧ text = exponent ++ rest := by
    obtain ⟨sign, known, signed⟩ := exists_sign after
    obtain ⟨run, all, left⟩ := digits_sound run_taken
    refine ⟨e :: sign ++ run, .inr ⟨e, sign, run, letter, known, all, rfl⟩, ?_⟩
    rw [parts, List.append_assoc, ← left, List.cons_append, ← signed]
  unfold readExponent at taken
  dsimp only at taken
  split at taken
  · rename_i lower
    exact marked 101 (by decide) _ (of_accept (Prod.ext lower rfl)) taken
  split at taken
  · rename_i upper
    exact marked 69 (by decide) _ (of_accept (Prod.ext upper rfl)) taken
  · cases taken
    exact ⟨[], .inl rfl, rfl⟩

theorem endsNumber_noDigit (stops : EndsNumber rest) : NoDigit rest := by
  intro c head
  have none := stops c head
  rw [Json.isNumberChar, Bool.or_eq_false_iff] at none
  exact none.1

theorem endsNumber_letter (stops : EndsNumber rest) {c : UInt8}
    (letter : Json.isNumberChar c = true) : rest.head? ≠ some c := by
  intro head
  rw [stops c head] at letter
  cases letter

theorem readExponent_complete {exponent : Bytes} (valid : Json.IsExponent exponent)
    (stops : EndsNumber rest) : readExponent (exponent ++ rest) = (true, rest) := by
  unfold readExponent
  rcases valid with rfl | ⟨e, sign, run, letter, known, all, rfl⟩
  · rw [List.nil_append, accept_other (endsNumber_letter stops (by decide)),
      accept_other (endsNumber_letter stops (by decide))]
    rfl
  have run_taken : digits (run ++ rest) = (true, rest) :=
    digits_complete all (endsNumber_noDigit stops)
  obtain ⟨d, tail, rfl⟩ := List.exists_cons_of_ne_nil all.1
  have digit := all.2 d List.mem_cons_self
  have unsigned (c : UInt8) (other : Json.isDigit c = false) :
      (d :: tail ++ rest).head? ≠ some c := by
    intro head
    rw [← Option.some.inj head, digit] at other
    cases other
  have sign_taken : (if (accept 43 (sign ++ (d :: tail ++ rest))).1 then
      (accept 43 (sign ++ (d :: tail ++ rest))).2
        else (accept 45 (sign ++ (d :: tail ++ rest))).2) = d :: tail ++ rest := by
    simp only [List.mem_cons, List.not_mem_nil, or_false] at known
    rcases known with rfl | rfl | rfl
    · rw [List.nil_append, accept_other (unsigned 43 (by decide)),
        accept_other (unsigned 45 (by decide))]
      rfl
    · rw [List.singleton_append, accept_cons, if_pos rfl]
    · rw [List.singleton_append, accept_cons]
      exact if_neg nofun
  simp only [List.mem_cons, List.not_mem_nil, or_false] at letter
  rw [List.append_assoc, List.cons_append]
  rcases letter with rfl | rfl
  · rw [accept_cons]
    simp only [if_true, sign_taken]
    exact run_taken
  · have other : accept 101 (69 :: (sign ++ (d :: tail ++ rest))) = (false, _) :=
      accept_other fun same => absurd (Option.some.inj same) (by decide)
    rw [other, accept_cons]
    simp only [Bool.false_eq_true, if_false, if_true, sign_taken]
    exact run_taken

/-- An optional sign is taken. -/
theorem exists_minus (text : Bytes) : ∃ sign : Bytes, (sign = [] ∨ sign = [45]) ∧
    text = sign ++ (accept 45 text).2 := by
  rcases minus : (accept 45 text).1 with _ | _
  · refine ⟨[], .inl rfl, ?_⟩
    rw [accept_other (accept_false minus)]
    rfl
  · exact ⟨[45], .inr rfl, of_accept (Prod.ext minus rfl)⟩

/-- **The token that is read** is a number, and stands after white space. -/
theorem readNumber_sound {value : Bytes} (taken : readNumber text = some (value, rest)) :
    ∃ space, White space ∧ text = space ++ (value ++ rest) ∧ IsNumber value := by
  obtain ⟨space, white, parts⟩ := exists_space text
  obtain ⟨sign, signs, signed⟩ := exists_minus (skipSpace text)
  unfold readNumber at taken
  dsimp only at taken
  rcases whole_read : readWhole (accept 45 (skipSpace text)).2 with ⟨_ | _, afterWhole⟩
  · rw [whole_read] at taken
    exact nomatch taken
  rcases fraction_read : readFraction afterWhole with ⟨_ | _, afterFraction⟩
  · rw [whole_read] at taken
    rw [fraction_read] at taken
    exact nomatch taken
  rcases exponent_read : readExponent afterFraction with ⟨_ | _, left⟩
  · rw [whole_read] at taken
    rw [fraction_read] at taken
    rw [exponent_read] at taken
    exact nomatch taken
  rw [whole_read] at taken
  rw [fraction_read] at taken
  rw [exponent_read] at taken
  obtain ⟨whole, ⟨all, zero⟩, hwhole⟩ := readWhole_sound whole_read
  obtain ⟨fraction, isFraction, hfraction⟩ := readFraction_sound fraction_read
  obtain ⟨exponent, isExponent, hexponent⟩ := readExponent_sound exponent_read
  have start : skipSpace text = (sign ++ whole ++ fraction ++ exponent) ++ left := by
    rw [signed, hwhole, hfraction, hexponent, List.append_assoc, List.append_assoc,
      List.append_assoc]
  obtain ⟨rfl, rfl⟩ : value = sign ++ whole ++ fraction ++ exponent ∧ rest = left := by
    have token : (skipSpace text).take ((skipSpace text).length - left.length) =
        sign ++ whole ++ fraction ++ exponent := by
      rw [start, List.length_append, Nat.add_sub_cancel, List.take_left]
    obtain ⟨same, same'⟩ := Prod.mk.inj (Option.some.inj taken)
    exact ⟨same.symm.trans token, same'.symm⟩
  exact ⟨space, white, parts.trans (congrArg (space ++ ·) start),
    .mk sign whole fraction exponent signs all zero isFraction isExponent⟩

theorem start_noSpace {c : UInt8} (starts : Json.isNumberStart c = true) : isSpace c = false := by
  rcases space : isSpace c with _ | _
  · rfl
  · rcases (isSpace_iff c).mp space with rfl | rfl | rfl | rfl <;> exact absurd starts (by decide)

/-- An exponent does not go on with digits or a fraction. -/
theorem exponent_stops {exponent : Bytes} (valid : Json.IsExponent exponent)
    (stops : EndsNumber rest) :
    NoDigit (exponent ++ rest) ∧ (exponent ++ rest).head? ≠ some 46 := by
  rcases valid with rfl | ⟨e, sign, run, letter, -, -, rfl⟩
  · exact ⟨endsNumber_noDigit stops, endsNumber_letter stops (by decide)⟩
  simp only [List.mem_cons, List.not_mem_nil, or_false] at letter
  constructor
  · intro c head
    obtain rfl := Option.some.inj head
    rcases letter with rfl | rfl <;> decide
  · intro head
    obtain rfl := Option.some.inj head
    rcases letter with same | same <;> exact absurd same (by decide)

theorem fraction_stops
    {fraction : Bytes} (valid : Json.IsFraction fraction) (stops : NoDigit rest) :
    NoDigit (fraction ++ rest) := by
  rcases valid with rfl | ⟨run, -, rfl⟩
  · exact stops
  · intro c head
    obtain rfl := Option.some.inj head
    decide

/-- **A number is read** when what follows does not go on with it. -/
theorem readNumber_complete {value : Bytes} (white : White space) (number : IsNumber value)
    (stops : EndsNumber rest) : readNumber (space ++ (value ++ rest)) = some (value, rest) := by
  have token := number
  obtain ⟨sign, whole, fraction, exponent, signs, all, zero, isFraction, isExponent⟩ := number
  obtain ⟨first, tail, cons, starts⟩ := token.exists_cons
  have noSpace : ∀ c, (sign ++ whole ++ fraction ++ exponent ++ rest).head? = some c →
      isSpace c = false := by
    intro c head
    rw [cons] at head
    obtain rfl := Option.some.inj head
    exact start_noSpace starts
  have afterFraction := exponent_stops isExponent stops
  have afterWhole : NoDigit (fraction ++ (exponent ++ rest)) :=
    fraction_stops isFraction afterFraction.1
  have afterSign : (accept 45 (sign ++ (whole ++ (fraction ++ (exponent ++ rest))))).2 =
      whole ++ (fraction ++ (exponent ++ rest)) := by
    rcases signs with rfl | rfl
    · obtain ⟨d, digits, rfl⟩ := List.exists_cons_of_ne_nil all.1
      rw [List.nil_append, accept_other]
      intro head
      have digit := all.2 d List.mem_cons_self
      rw [Option.some.inj head] at digit
      exact absurd digit (by decide)
    · exact congrArg Prod.snd (accept_cons 45 _)
  have length : (sign ++ (whole ++ (fraction ++ (exponent ++ rest)))).length - rest.length =
      (sign ++ whole ++ fraction ++ exponent).length := by
    simp only [List.length_append]
    omega
  have token_taken : (sign ++ whole ++ fraction ++ exponent ++ rest).take
      (sign ++ whole ++ fraction ++ exponent).length = sign ++ whole ++ fraction ++ exponent :=
    List.take_left
  unfold readNumber
  rw [skipSpace_append white noSpace]
  simp only [List.append_assoc, afterSign, readWhole_complete ⟨all, zero⟩ afterWhole,
    readFraction_complete isFraction afterFraction.1 afterFraction.2,
    readExponent_complete isExponent stops, length]
  simp only [List.append_assoc] at token_taken
  simp only [Bool.not_true, Bool.false_eq_true, if_false, token_taken]

/-! ### Members -/

/-- The source text of a value. -/
def source : Kind → Bytes
  | .number token => token
  | .string body _ => body
  | _ => []

/-- A member of a control message: a string that needs no escapes, or a number. A key is told by
its source text, like a value. -/
inductive IsMember : Json.Item → Prop
  | string {key value : Bytes} (known : key = literal "type" ∨ key = literal "command")
      (unescaped : Json.backslash ∉ value) : IsMember ⟨key, .string value value, .nil⟩
  | number (token : Bytes) : IsMember ⟨literal "rate", .number token, .nil⟩

/-- The field of a key. -/
def value (fields : ControlFields) (key : Bytes) : Option Bytes :=
  if key = literal "type" then fields.type
  else if key = literal "command" then fields.command
  else if key = literal "rate" then fields.rate
  else none

/-- A value is stored in the field of its key. -/
def store (fields : ControlFields) (key text : Bytes) : ControlFields :=
  if key = literal "type" then { fields with type := some text }
  else if key = literal "command" then { fields with command := some text }
  else { fields with rate := some text }

/-- The members are stored one after another, each in a field that is free. -/
def StoresAll : ControlFields → List Json.Item → ControlFields → Prop
  | fields, [], result => fields = result
  | fields, item :: items, result =>
    IsMember item ∧ value fields item.key = none ∧
      StoresAll (store fields item.key (source item.kind)) items result

theorem plain_of_stringBody {body : Bytes} (valid : StringBody body)
    (unescaped : Json.backslash ∉ body) : ∀ c ∈ body, IsPlain c := by
  induction valid with
  | nil => exact fun _ mem => nomatch mem
  | plain first _ ih =>
    exact List.forall_mem_cons.mpr ⟨first, ih fun mem => unescaped (List.mem_cons_of_mem _ mem)⟩
  | short _ _ => exact absurd List.mem_cons_self unescaped
  | codePoint _ _ _ => exact absurd List.mem_cons_self unescaped

theorem stringBody_of_plain {body : Bytes} (plain : ∀ c ∈ body, IsPlain c) : StringBody body :=
  (Json.spells_of_plain plain).stringBody

theorem plain_unescaped {body : Bytes} (plain : ∀ c ∈ body, IsPlain c) : Json.backslash ∉ body :=
  fun mem => (plain _ mem).2.2 rfl

theorem known_key (member : IsMember item) :
    item.key = literal "type" ∨ item.key = literal "command" ∨ item.key = literal "rate" := by
  rcases member with ⟨known, -⟩ | token
  · exact known.imp_right .inl
  · exact .inr (.inr rfl)

theorem key_plain (member : IsMember item) : ∀ c ∈ item.key, IsPlain c := by
  rcases known_key member with same | same | same <;> rw [same] <;> decide

/-- The key of a member and its colon are read. -/
theorem readKey_complete {before name : Bytes} (white : White before)
    (named : Json.Name true key name) (plain : ∀ c ∈ key, IsPlain c) (rest : Bytes) :
    ∃ after between, White after ∧ White between ∧
      readString (before ++ (name ++ rest)) =
        some (key, between ++ Json.colon :: (after ++ rest)) := by
  cases named with
  | @key _ between after _ whiteBetween whiteAfter =>
    refine ⟨after, between, whiteAfter, whiteBetween, readString_iff.mpr ⟨before, white, ?_, plain⟩⟩
    simp only [List.cons_append, List.append_assoc]

/-- **A member is read** into its field, which was free. -/
theorem readField_complete {before name : Bytes} (member : IsMember item)
    (written : item.kind.Written) (free : value fields item.key = none) (white : White before)
    (named : Json.Name true item.key name) (stops : EndsNumber rest) :
    readField fields (before ++ (name ++ (item.kind.opening ++ rest))) =
      some (store fields item.key (source item.kind), rest) := by
  obtain ⟨after, between, whiteAfter, whiteBetween, key_read⟩ :=
    readKey_complete white named (key_plain member) (item.kind.opening ++ rest)
  unfold readField
  rw [key_read]
  dsimp only
  rw [consume_append (by decide) whiteBetween]
  rcases member with ⟨known, unescaped⟩ | token
  · rename_i key text
    have text_read : readString (after ++ ((Kind.string text text).opening ++ rest)) =
        some (text, rest) := by
      refine readString_iff.mpr ⟨after, whiteAfter, ?_, plain_of_stringBody written unescaped⟩
      simp only [Kind.opening, List.cons_append, List.append_assoc, List.nil_append]
    rcases known with rfl | rfl
    · have absent : fields.type = none := free
      rw [text_read, absent]
      rfl
    · have absent : fields.command = none := free
      rw [text_read, absent]
      rfl
  · have absent : fields.rate = none := free
    have token_read : readNumber (after ++ ((Kind.number token).opening ++ rest)) =
        some (token, rest) := readNumber_complete whiteAfter written stops
    rw [token_read, absent]
    rfl

/-- What is read as a member is one. -/
theorem readField_sound (taken : readField fields text = some (result, rest)) :
    ∃ item before name, IsMember item ∧ item.kind.Written ∧ value fields item.key = none ∧
      White before ∧ Json.Name true item.key name ∧
      text = before ++ (name ++ (item.kind.opening ++ rest)) ∧
      result = store fields item.key (source item.kind) := by
  unfold readField at taken
  split at taken
  · exact nomatch taken
  rename_i key after key_read
  obtain ⟨before, whiteBefore, parts, plain⟩ := readString_iff.mp key_read
  dsimp only at taken
  split at taken
  · exact nomatch taken
  rename_i colon
  rw [Bool.not_eq_true', Bool.not_eq_false] at colon
  obtain ⟨between, whiteBetween, parts'⟩ := of_consume (Prod.ext colon rfl)
  -- what is stored by a member that is read once
  have once {field : Option Bytes} {value : Option (Bytes × Bytes)} {change : Bytes → ControlFields}
      (stored : readOnce field value change = some (result, rest)) :
      field = none ∧ ∃ text, value = some (text, rest) ∧ result = change text := by
    unfold readOnce at stored
    split at stored
    · exact nomatch stored
    rename_i absent
    obtain ⟨⟨text, left⟩, read, same⟩ := Option.map_eq_some_iff.mp stored
    cases same
    exact ⟨Option.not_isSome_iff_eq_none.mp absent, text, read, rfl⟩
  have spelled {space opening : Bytes}
      (left : (consume Json.colon after).2 = space ++ (opening ++ rest)) :
      text = before ++ (Json.quote :: (key ++ Json.quote :: (between ++ Json.colon :: space)) ++
        (opening ++ rest)) := by
    rw [parts, parts'.trans (congrArg (between ++ Json.colon :: ·) left)]
    simp only [List.cons_append, List.append_assoc]
  have string {known : Bytes} (same : key = known)
      (member : known = literal "type" ∨ known = literal "command") {body : Bytes}
      (absent : value fields known = none)
      (body_read : readString (consume Json.colon after).2 = some (body, rest))
      (stored : result = store fields known body) :
      ∃ item before name, IsMember item ∧ item.kind.Written ∧ value fields item.key = none ∧
        White before ∧ Json.Name true item.key name ∧
        text = before ++ (name ++ (item.kind.opening ++ rest)) ∧
        result = store fields item.key (source item.kind) := by
    obtain ⟨space, white, left, plainBody⟩ := readString_iff.mp body_read
    subst same
    refine ⟨⟨key, .string body body, .nil⟩, before, _, .string member (plain_unescaped plainBody),
      stringBody_of_plain plainBody, absent, whiteBefore,
      .key (stringBody_of_plain plain) whiteBetween white, spelled ?_, stored⟩
    rw [left]
    simp only [Kind.opening, List.cons_append, List.append_assoc, List.nil_append]
  split at taken
  · rename_i same
    obtain ⟨absent, body, body_read, stored⟩ := once taken
    exact string same (.inl rfl) absent body_read stored
  split at taken
  · rename_i same
    obtain ⟨absent, body, body_read, stored⟩ := once taken
    exact string same (.inr rfl) absent body_read stored
  split at taken
  · rename_i same
    obtain ⟨absent, token, token_read, stored⟩ := once taken
    obtain ⟨space, white, left, number⟩ := readNumber_sound token_read
    subst same
    exact ⟨⟨_, .number token, .nil⟩, before, _, .number token, number, absent, whiteBefore,
      .key (stringBody_of_plain plain) whiteBetween white, spelled left, stored⟩
  · exact nomatch taken

/-! ### Objects -/

/-- A chain of members goes on after a comma. -/
theorem written_later {kind : Kind} {next : Items} {keyed : Bool} :
    Written (.cons key kind inner next) keyed false text ↔
      ∃ left, text = Json.comma :: left ∧ Written (.cons key kind inner next) keyed true left := by
  constructor
  · intro written
    cases written with
    | cons before name written scalar inside after later =>
      exact ⟨_, rfl, .cons before name written scalar inside after later⟩
  · rintro ⟨left, rfl, written⟩
    cases written with
    | cons before name written scalar inside after later =>
      exact .cons before name written scalar inside after later

/-- The text of a member and of the members after it. -/
theorem written_member (member : IsMember item) : Written (.ofList (item :: items)) true true text ↔
      ∃ before name after later,
        text = before ++ (name ++ (item.kind.opening ++ (after ++ later))) ∧ White before ∧
        Json.Name true item.key name ∧ item.kind.Written ∧ White after ∧
        Written (.ofList items) true false later := by
  have scalar : item.kind.isContainer = false ∧ item.inner = .nil ∧ item.kind.closing = [] := by
    rcases member with _ | _ <;> exact ⟨rfl, rfl, rfl⟩
  constructor
  · intro written
    rw [Items.ofList] at written
    cases written with
    | @cons _ _ _ _ _ _ before name _ after later white named kind empty _ trailing rest =>
      refine ⟨before, name, after, later, ?_, white, named, kind, trailing, rest⟩
      rw [(empty scalar.1).2, scalar.2.2]
      rfl
  · rintro ⟨before, name, after, later, rfl, white, named, kind, trailing, rest⟩
    have inside : Written item.inner item.kind.isObject true [] := by
      rw [scalar.2.1]
      exact .nil Json.white_nil
    have written : Written (.ofList (item :: items)) true true _ :=
      .cons white named kind (fun _ => ⟨scalar.2.1, rfl⟩) inside trailing rest
    rw [scalar.2.2] at written
    exact written

/-- A member ends before white space, a comma and a bracket. -/
theorem endsNumber_member {later : Bytes} (white : White space)
    (written : Written (.ofList items) true false later) (closing : rest.head? = some 125) :
    EndsNumber (space ++ (later ++ rest)) := by
  have blank {text : Bytes} (all : White text) {rest : Bytes} (ends : EndsNumber rest) :
      EndsNumber (text ++ rest) := by
    intro c head
    rcases text with _ | ⟨d, text⟩
    · exact ends c head
    · obtain rfl := Option.some.inj head
      rcases all d List.mem_cons_self with rfl | rfl | rfl | rfl <;> decide
  have close : EndsNumber rest := by
    intro c head
    obtain rfl := Option.some.inj (closing.symm.trans head)
    decide
  refine blank white ?_
  rcases items with _ | ⟨item, items⟩
  · cases written with
    | nil white => exact blank white close
  · obtain ⟨left, rfl, -⟩ := written_later.mp written
    intro c head
    obtain rfl := Option.some.inj head
    decide

/-- **The members** of an object are read up to its closing bracket. -/
theorem readFields_complete {rounds : ℕ} (some_item : items ≠ []) (bound : items.length ≤ rounds)
    (written : Written (.ofList items) true true text) (stored : StoresAll fields items result)
    (closing : rest.head? = some 125) :
    readFields rounds fields (text ++ rest) = some (result, rest) := by
  induction items generalizing fields text rounds with
  | nil => exact absurd rfl some_item
  | cons item items ih =>
    obtain _ | rounds := rounds
    · exact absurd bound (Nat.not_succ_le_zero _)
    obtain ⟨member, free, others⟩ := stored
    obtain ⟨before, name, after, later, rfl, white, named, kind, trailing, left⟩ :=
      (written_member member).mp written
    have field_read := readField_complete member kind free white named
      (endsNumber_member trailing left closing)
    simp only [List.append_assoc]
    rw [readFields, field_read]
    dsimp only
    rcases items with _ | ⟨next, items⟩
    · -- the last member is followed by white space and the bracket
      obtain rfl : store fields item.key (source item.kind) = result := others
      obtain ⟨rest, rfl⟩ := List.head?_eq_some_iff.mp closing
      cases left with
      | nil blank =>
        have all : White (after ++ later) := trailing.append blank
        have bracket : consume Json.comma (after ++ later ++ 125 :: rest) = (false, 125 :: rest) :=
          consume_other (by decide) (by decide) all rest
        rw [← List.append_assoc, bracket]
        rfl
    · obtain ⟨left, rfl, more⟩ := written_later.mp left
      rw [List.cons_append, consume_append (by decide) trailing]
      exact ih nofun (Nat.le_of_succ_le_succ bound) more others

/-- **What is read as members** are members, up to what no comma goes on with. -/
theorem readFields_sound
    {rounds : ℕ} (taken : readFields rounds fields text = some (result, rest)) :
    ∃ items left, items ≠ [] ∧ Written (.ofList items) true true left ∧ text = left ++ rest ∧
      StoresAll fields items result := by
  induction rounds generalizing fields text with
  | zero => exact nomatch taken
  | succ rounds ih =>
    rw [readFields] at taken
    split at taken
    · exact nomatch taken
    rename_i stored after field_read
    obtain ⟨item, before, name, member, kind, free, white, named, rfl, rfl⟩ :=
      readField_sound field_read
    dsimp only at taken
    split at taken
    · rename_i comma
      obtain ⟨trailing, blank, parts⟩ := of_consume (Prod.ext comma rfl)
      obtain ⟨items, left, some_item, written, parts', others⟩ := ih taken
      obtain ⟨next, items, rfl⟩ := List.exists_cons_of_ne_nil some_item
      have later : Written (.ofList (next :: items)) true false (Json.comma :: left) :=
        written_later.mpr ⟨left, rfl, written⟩
      refine ⟨item :: next :: items, _, nofun, (written_member member).mpr
        ⟨before, name, trailing, Json.comma :: left, rfl, white, named, kind, blank, later⟩, ?_,
        member, free, others⟩
      have rest_parts := parts.trans (congrArg (trailing ++ Json.comma :: ·) parts')
      rw [rest_parts]
      simp only [List.append_assoc, List.cons_append]
    · rename_i other
      obtain ⟨trailing, blank, parts⟩ := exists_space after
      have stays : rest = skipSpace after := by
        have same := accept_other (accept_false (Bool.eq_false_of_not_eq_true other))
        obtain ⟨-, same'⟩ := Prod.mk.inj (Option.some.inj taken)
        exact same'.symm.trans (congrArg Prod.snd same)
      obtain ⟨rfl, -⟩ := Prod.mk.inj (Option.some.inj taken)
      refine ⟨[item], _, nofun, (written_member member).mpr
        ⟨before, name, trailing, [], rfl, white, named, kind, blank, .nil Json.white_nil⟩, ?_,
        member, free, rfl⟩
      rw [stays]
      simp only [List.append_assoc, List.nil_append, ← parts]

/-! ### Fields -/

/-- The source text of the value of a key. -/
def sourceOf (key : Bytes) (items : List Json.Item) : Option Bytes :=
  (items.find? fun item => item.key = key).map fun item => source item.kind

theorem value_store (known : key = literal "type" ∨ key = literal "command" ∨ key = literal "rate")
    (fields : ControlFields) (text other : Bytes) :
    value (store fields key text) other =
      if other = key then some text else value fields other := by
  have command : literal "command" ≠ literal "type" := by decide
  have rate : literal "rate" ≠ literal "type" ∧ literal "rate" ≠ literal "command" := by decide
  unfold value store
  rcases known with rfl | rfl | rfl
  · rw [if_pos rfl]
    split_ifs <;> rfl
  · rw [if_neg command, if_pos rfl]
    by_cases type : other = literal "type"
    · rw [if_pos type, if_pos type, if_neg (type ▸ command.symm)]
    · rw [if_neg type, if_neg type]
      split_ifs <;> rfl
  · rw [if_neg rate.1, if_neg rate.2]
    by_cases other_rate : other = literal "rate"
    · rw [other_rate, if_pos rfl, if_neg rate.1, if_neg rate.2, if_pos rfl]
    · rw [if_neg other_rate, if_neg other_rate, if_neg other_rate]

theorem value_ext {fields' : ControlFields} (same : ∀ key, value fields key = value fields' key) :
    fields = fields' := by
  have type : fields.type = fields'.type := same (literal "type")
  have command : fields.command = fields'.command := same (literal "command")
  have rate : fields.rate = fields'.rate := same (literal "rate")
  cases fields
  cases fields'
  cases type
  cases command
  cases rate
  rfl

/-- A member gives the value of its key, unless an earlier one did. -/
theorem sourceOf_cons (key : Bytes) (item : Json.Item) (items : List Json.Item) :
    sourceOf key (item :: items) =
      if key = item.key then some (source item.kind) else sourceOf key items := by
  unfold sourceOf
  by_cases same : key = item.key
  · rw [if_pos same, List.find?_cons_of_pos (by rw [same]; exact decide_eq_true rfl)]
    rfl
  · rw [if_neg same, List.find?_cons_of_neg]
    exact fun found => same (of_decide_eq_true found).symm

/-- **Members are stored** when their keys are free and differ, and then as they stand. -/
theorem storesAll_iff {start : ControlFields} :
    StoresAll start items result ↔
      (∀ item ∈ items, IsMember item ∧ value start item.key = none) ∧
        (items.map Json.Item.key).Nodup ∧
        ∀ key, value result key = (value start key).or (sourceOf key items) := by
  induction items generalizing start with
  | nil =>
    constructor
    · rintro rfl
      exact ⟨fun _ mem => (nomatch mem), List.nodup_nil, fun key => Option.or_none.symm⟩
    · rintro ⟨-, -, values⟩
      exact value_ext fun key => ((values key).trans Option.or_none).symm
  | cons item items ih =>
    have stored (member : IsMember item) (text : Bytes) := value_store (known_key member) start text
    rw [StoresAll, ih, List.forall_mem_cons, List.map_cons, List.nodup_cons]
    constructor
    · rintro ⟨member, free, others, once, values⟩
      have fresh (next : Json.Item) (mem : next ∈ items) :
          next.key ≠ item.key ∧ value start next.key = none := by
        have absent := (others next mem).2
        rw [stored member] at absent
        split at absent
        · exact nomatch absent
        · rename_i other
          exact ⟨other, absent⟩
      refine ⟨⟨⟨member, free⟩, fun next mem => ⟨(others next mem).1, (fresh next mem).2⟩⟩,
        ⟨fun mem => ?_, once⟩, fun key => ?_⟩
      · obtain ⟨next, next_mem, same⟩ := List.mem_map.mp mem
        exact (fresh next next_mem).1 same
      · rw [values key, stored member, sourceOf_cons]
        split
        · rename_i same
          rw [same, free]
          rfl
        · rfl
    · rintro ⟨⟨⟨member, free⟩, others⟩, ⟨first, once⟩, values⟩
      refine ⟨member, free, fun next mem => ⟨(others next mem).1, ?_⟩, once, fun key => ?_⟩
      · have other : next.key ≠ item.key := fun same => first (same ▸ List.mem_map_of_mem mem)
        rw [stored member, if_neg other]
        exact (others next mem).2
      · rw [values key, stored member, sourceOf_cons]
        split
        · rename_i same
          rw [same, free]
          rfl
        · rfl

end ControlReader

open ControlReader

/-! ### The objects that are accepted -/

/-- **The members of a control message**, in any order: each key at most once, and the source texts
of the values. -/
structure ControlObject (items : List Json.Item) (fields : ControlFields) : Prop where
  known : ∀ item ∈ items, IsMember item
  once : (items.map Json.Item.key).Nodup
  type : fields.type = sourceOf (literal "type") items
  command : fields.command = sourceOf (literal "command") items
  rate : fields.rate = sourceOf (literal "rate") items

theorem sourceOf_unknown (known : ∀ item ∈ items, IsMember item)
    (other : ¬ (key = literal "type" ∨ key = literal "command" ∨ key = literal "rate")) :
    sourceOf key items = none := by
  refine Option.map_eq_none_iff.mpr (List.find?_eq_none.mpr fun item mem found => other ?_)
  rw [← of_decide_eq_true found]
  exact known_key (known item mem)

theorem controlObject_iff : ControlObject items fields ↔ StoresAll {} items fields := by
  have free (key : Bytes) : value {} key = none := by
    unfold value
    split_ifs <;> rfl
  rw [storesAll_iff]
  constructor
  · intro object
    refine ⟨fun item mem => ⟨object.known item mem, free _⟩, object.once, fun key => ?_⟩
    rw [free, Option.none_or]
    by_cases known : key = literal "type" ∨ key = literal "command" ∨ key = literal "rate"
    · rcases known with rfl | rfl | rfl
      · exact object.type
      · exact object.command
      · exact object.rate
    · rw [sourceOf_unknown object.known known]
      obtain ⟨type, others⟩ := not_or.mp known
      obtain ⟨command, rate⟩ := not_or.mp others
      rw [value, if_neg type, if_neg command, if_neg rate]
  · rintro ⟨members, once, values⟩
    have kept (key : Bytes) : value fields key = sourceOf key items := by
      rw [values key, free, Option.none_or]
    exact ⟨fun item mem => (members item mem).1, once, kept (literal "type"),
      kept (literal "command"), kept (literal "rate")⟩

/-- The text is a JSON object with the members of a control message. -/
def IsControlObject (text : Bytes) (fields : ControlFields) : Prop :=
  ∃ items, Json.Document text (.cons [] .object (.ofList items) .nil) ∧ ControlObject items fields

/-- An object stands between its brackets, and white space around it. -/
theorem document_object :
    Json.Document text (.cons [] .object inner .nil) ↔
      ∃ before innerText after, White before ∧ White after ∧ Written inner true true innerText ∧
        text = before ++ 123 :: (innerText ++ 125 :: after) := by
  constructor
  · rintro ⟨kind, inner', same, written⟩
    cases same
    cases written with
    | cons white named _ _ inside trailing next =>
      cases named
      cases next with
      | @nil _ _ last blank =>
        exact ⟨_, _, _, white, trailing.append blank, inside, rfl⟩
  · rintro ⟨before, innerText, after, white, blank, inside, rfl⟩
    refine ⟨.object, inner, rfl, ?_⟩
    have written : Written (.cons [] .object inner .nil) false true _ :=
      .cons white .none trivial nofun inside blank (.nil Json.white_nil)
    rw [List.append_nil] at written
    exact written

/-- Every member takes some of the text. -/
theorem length_members {first : Bool} (written : Written (.ofList items) true first text) :
    items.length ≤ text.length := by
  induction items generalizing first text with
  | nil => exact Nat.zero_le _
  | cons item items ih =>
    cases written with
    | cons _ named _ _ _ _ next =>
      have later := ih next
      cases named
      simp only [List.length_append, List.length_cons]
      omega

/-- The bracket that closes an object is read, with white space to the end of the text. -/
theorem closing_complete {after : Bytes} (blank : White after) : atEnd after = true := by
  have skipped : skipSpace (after ++ []) = [] := skipSpace_append blank nofun
  rw [List.append_nil] at skipped
  rw [atEnd, skipped]
  rfl

theorem closing_sound {after : Bytes} (ended : atEnd after = true) : White after := by
  obtain ⟨space, white, parts⟩ := exists_space after
  rw [List.isEmpty_iff.mp ended, List.append_nil] at parts
  exact parts ▸ white

/-- White space may stand before and after the members. -/
theorem written_space
    {keyed : Bool} (white : White space) (written : Written inner keyed true text) :
    Written inner keyed true (space ++ text) := by
  cases written with
  | nil blank => exact .nil (white.append blank)
  | cons before named kind scalar inside after next =>
    have wider : Written _ keyed true _ :=
      .cons (white.append before) named kind scalar inside after next
    simp only [List.append_assoc] at wider
    exact wider

theorem written_last {keyed first : Bool} (written : Written inner keyed first text)
    (white : White space) : Written inner keyed first (text ++ space) := by
  induction written with
  | nil blank => exact .nil (blank.append white)
  | @cons keyed first _ _ _ _ _ _ _ _ _ before named kind scalar inside after _ _ ih =>
    have wider : Written _ keyed first _ := .cons before named kind scalar inside after ih
    simp only [← List.append_assoc] at wider ⊢
    exact wider

/-- White space before the first member is skipped. -/
theorem written_skip (written : Written (.ofList (item :: items)) true true text) :
    ∃ space left, White space ∧ text = space ++ Json.quote :: left ∧
      Written (.ofList (item :: items)) true true (Json.quote :: left) := by
  cases written with
  | cons before named kind scalar inside after next =>
    cases named with
    | key keyBody between behind =>
      have moved : Written _ true true _ :=
        .cons Json.white_nil (.key keyBody between behind) kind scalar inside after next
      exact ⟨_, _, before, rfl, moved⟩

/-- **The reader is exact.** -/
theorem read_iff : ControlReader.read text = some fields ↔ IsControlObject text fields := by
  constructor
  · intro taken
    unfold ControlReader.read at taken
    dsimp only at taken
    split at taken
    · exact nomatch taken
    rename_i opening
    rw [Bool.not_eq_true', Bool.not_eq_false] at opening
    obtain ⟨before, white, parts⟩ := of_consume (Prod.ext opening rfl)
    split at taken
    · -- an object without members
      rename_i closing
      obtain ⟨inside, blank, parts'⟩ := of_consume (Prod.ext closing rfl)
      split at taken
      · rename_i ended
        cases taken
        refine ⟨[], document_object.mpr ⟨before, inside, _, white, closing_sound ended,
          .nil blank, ?_⟩, controlObject_iff.mpr rfl⟩
        exact parts.trans (congrArg (before ++ 123 :: ·) parts')
      · exact nomatch taken
    · rename_i inside_next
      obtain ⟨space, blank, parts'⟩ := exists_space (consume 123 text).2
      have stays : (consume 125 (consume 123 text).2).2 = skipSpace (consume 123 text).2 :=
        congrArg Prod.snd (accept_other (accept_false (Bool.eq_false_of_not_eq_true inside_next)))
      rw [stays] at taken
      split at taken
      · exact nomatch taken
      rename_i result rest fields_read
      obtain ⟨items, left, some_item, written, left_parts, stored⟩ := readFields_sound fields_read
      split at taken
      · rename_i closed
        cases taken
        obtain ⟨closing, ended⟩ := Bool.and_eq_true_iff.mp closed
        obtain ⟨last, lastWhite, rest_parts⟩ := of_consume (Prod.ext closing rfl)
        refine ⟨items, document_object.mpr ⟨before, space ++ (left ++ last), _, white,
          closing_sound ended, written_space blank (written_last written lastWhite), ?_⟩,
          controlObject_iff.mpr stored⟩
        rw [parts.trans (congrArg (before ++ 123 :: ·) parts'), left_parts]
        simp only [List.append_assoc, ← rest_parts]
      · exact nomatch taken
  · rintro ⟨items, document, object⟩
    obtain ⟨before, innerText, after, white, blank, written, rfl⟩ := document_object.mp document
    have stored := controlObject_iff.mp object
    unfold ControlReader.read
    rw [consume_append (by decide) white]
    dsimp only
    rw [if_neg (by decide)]
    rcases items with _ | ⟨item, items⟩
    · obtain rfl : {} = fields := stored
      cases written with
      | nil space =>
        rw [consume_append (by decide) space]
        rw [if_pos rfl, if_pos (closing_complete blank)]
    · obtain ⟨space, left, spaceWhite, rfl, later⟩ := written_skip written
      have some_item : item :: items ≠ [] := nofun
      have bound : (item :: items).length ≤
          (before ++ 123 :: (space ++ Json.quote :: left ++ 125 :: after)).length := by
        have := length_members later
        simp only [List.length_append, List.length_cons] at this ⊢
        omega
      have inside_next : consume 125 (space ++ Json.quote :: left ++ 125 :: after) =
          (false, Json.quote :: left ++ 125 :: after) := by
        rw [List.append_assoc]
        exact consume_other (by decide) (by decide) spaceWhite _
      rw [inside_next]
      dsimp only
      rw [if_neg (by decide), readFields_complete some_item bound later stored rfl]
      dsimp only
      have closing : consume 125 (125 :: after) = (true, after) :=
        consume_append (by decide) Json.white_nil after
      rw [closing, closing_complete blank]
      rfl

/-! ### The texts that are accepted -/

/-- **The commands of the control messages.** -/
inductive Commands : ControlFields → PlaybackCommand → Prop
  | play : Commands ⟨literal "control", literal "play", none⟩ .play
  | pause : Commands ⟨literal "control", literal "pause", none⟩ .pause
  | restart : Commands ⟨literal "control", literal "restart", none⟩ .restart
  | rate (rate : PlaybackRate) :
    Commands ⟨literal "control", literal "rate", rate.token⟩ (.setRate rate)

def commandNames : List Bytes :=
  [literal "play", literal "pause", literal "restart", literal "rate"]

/-- **The reason of a rejection.** A reason is given for what was not rejected before. -/
inductive Rejects (text : Bytes) : String → Prop
  | tooLong (long : kMaxControlMessageBytes < text.length) : Rejects text "too_long"
  | malformed (short : text.length ≤ kMaxControlMessageBytes)
    (other : ∀ fields, ¬ IsControlObject text fields) : Rejects text "malformed"
  | unknownType (short : text.length ≤ kMaxControlMessageBytes) {fields : ControlFields}
    (object : IsControlObject text fields) (type : fields.type ≠ some (literal "control")) :
    Rejects text "unknown_type"
  | unknownCommand (short : text.length ≤ kMaxControlMessageBytes) {fields : ControlFields}
    (object : IsControlObject text fields) (type : fields.type = some (literal "control"))
    (command : ∀ name ∈ fields.command, name ∉ commandNames) : Rejects text "unknown_command"
  | unsupportedRate (short : text.length ≤ kMaxControlMessageBytes) {fields : ControlFields}
    (object : IsControlObject text fields) (type : fields.type = some (literal "control"))
    (command : fields.command = some (literal "rate")) {token : Bytes}
    (rate : fields.rate = some token) (unsupported : ∀ rate : PlaybackRate, rate.token ≠ token) :
    Rejects text "unsupported_rate"
  | rateMissing (short : text.length ≤ kMaxControlMessageBytes) {fields : ControlFields}
    (object : IsControlObject text fields) (type : fields.type = some (literal "control"))
    (command : fields.command = some (literal "rate")) (rate : fields.rate = none) :
    Rejects text "malformed"
  | rateUnexpected (short : text.length ≤ kMaxControlMessageBytes) {fields : ControlFields}
    (object : IsControlObject text fields) (type : fields.type = some (literal "control"))
    {name : Bytes} (command : fields.command = some name) (simple : name ∈ commandNames)
    (other : name ≠ literal "rate") (rate : fields.rate ≠ none) : Rejects text "malformed"

/-- The reasons of the protocol. -/
def rejectionReasons : List String :=
  ["too_long", "malformed", "unknown_type", "unknown_command", "unsupported_rate"]

theorem fromToken_iff {token : Bytes} {rate : PlaybackRate} :
    PlaybackRate.fromToken token = some rate ↔ token = rate.token := by
  constructor
  · intro found
    have spelled := List.find?_some found
    exact (of_decide_eq_true spelled).symm
  · rintro rfl
    cases rate <;> decide

theorem fromToken_eq_none {token : Bytes} :
    PlaybackRate.fromToken token = none ↔ ∀ rate : PlaybackRate, rate.token ≠ token := by
  rw [Option.eq_none_iff_forall_ne_some]
  exact forall_congr' fun rate => not_congr (fromToken_iff.trans eq_comm)

/-- What is left to parse in an object. -/
def commandOf (fields : ControlFields) : PlaybackCommandParse :=
  if fields.type ≠ some (literal "control") then rejected "unknown_type"
  else
    match fields.command with
    | none => rejected "unknown_command"
    | some command =>
      if command = literal "rate" then rateCommand fields.rate
      else
        match simpleCommand command with
        | none => rejected "unknown_command"
        | some command =>
          if fields.rate.isSome then rejected "malformed" else { command := some command }

theorem parse_object (short : text.length ≤ kMaxControlMessageBytes)
    (object : IsControlObject text fields) : parsePlaybackCommand text = commandOf fields := by
  rw [parsePlaybackCommand, if_neg (Nat.not_lt.mpr short), read_iff.mpr object]
  rfl

theorem simpleCommand_isSome {name : Bytes} (other : name ≠ literal "rate") :
    (simpleCommand name).isSome ↔ name ∈ commandNames := by
  unfold simpleCommand commandNames
  simp only [List.mem_cons, List.not_mem_nil, or_false, other]
  split_ifs with play pause restart
  · exact ⟨fun _ => .inl play, fun _ => rfl⟩
  · exact ⟨fun _ => .inr (.inl pause), fun _ => rfl⟩
  · exact ⟨fun _ => .inr (.inr restart), fun _ => rfl⟩
  · exact ⟨nofun, fun known => (known.elim play (·.elim pause restart)).elim⟩

/-- A command is made of its fields. -/
theorem parse_commands {command : PlaybackCommand} (short : text.length ≤ kMaxControlMessageBytes)
    (object : IsControlObject text fields) (commands : Commands fields command) :
    parsePlaybackCommand text = { command := some command } := by
  rw [parse_object short object]
  cases commands with
  | play => decide
  | pause => decide
  | restart => decide
  | rate rate =>
    rw [commandOf, if_neg (not_not.mpr rfl)]
    dsimp only
    rw [if_pos rfl, rateCommand, fromToken_iff.mpr rfl]

/-- A reason is the one that is given. -/
theorem parse_rejects {reason : String} (rejects : Rejects text reason) :
    parsePlaybackCommand text = rejected reason := by
  cases rejects with
  | tooLong long => exact if_pos long
  | malformed short other =>
    have unread : ControlReader.read text = none :=
      Option.eq_none_iff_forall_ne_some.mpr fun fields taken => other fields (read_iff.mp taken)
    rw [parsePlaybackCommand, if_neg (Nat.not_lt.mpr short), unread]
  | unknownType short object type =>
    rw [parse_object short object]
    exact if_pos type
  | @unknownCommand short fields object type command =>
    rw [parse_object short object, commandOf, if_neg (not_not.mpr type)]
    rcases named : fields.command with _ | name
    · rfl
    · have unknown := command name named
      have other : name ≠ literal "rate" := fun same => unknown (by rw [same]; decide)
      dsimp only
      rw [if_neg other]
      have none : simpleCommand name = none := by
        rw [← Option.not_isSome_iff_eq_none, simpleCommand_isSome other]
        exact unknown
      rw [none]
  | unsupportedRate short object type command rate unsupported =>
    rw [parse_object short object, commandOf, if_neg (not_not.mpr type), command, rate]
    dsimp only
    rw [if_pos rfl, rateCommand, fromToken_eq_none.mpr unsupported]
  | rateMissing short object type command rate =>
    rw [parse_object short object, commandOf, if_neg (not_not.mpr type), command, rate]
    rfl
  | @rateUnexpected short fields object type name command simple other rate =>
    rw [parse_object short object, commandOf, if_neg (not_not.mpr type), command]
    dsimp only
    rw [if_neg other]
    obtain ⟨known, found⟩ := Option.isSome_iff_exists.mp ((simpleCommand_isSome other).mpr simple)
    rw [found]
    exact if_pos (Option.isSome_iff_ne_none.mpr rate)

/-- Every text is a command, or there is a reason against it. -/
theorem commands_or_rejects (text : Bytes) :
    (text.length ≤ kMaxControlMessageBytes ∧
      ∃ fields command, IsControlObject text fields ∧ Commands fields command) ∨
      ∃ reason ∈ rejectionReasons, Rejects text reason := by
  rcases Nat.lt_or_ge kMaxControlMessageBytes text.length with long | short
  · exact .inr ⟨_, by decide, .tooLong long⟩
  by_cases read : ∃ fields, IsControlObject text fields
  swap
  · exact .inr ⟨_, by decide, .malformed short fun fields object => read ⟨fields, object⟩⟩
  obtain ⟨⟨type, command, rate⟩, object⟩ := read
  by_cases control : type = some (literal "control")
  swap
  · exact .inr ⟨_, by decide, .unknownType short object control⟩
  subst control
  rcases command with _ | name
  · exact .inr ⟨_, by decide, .unknownCommand short object rfl nofun⟩
  by_cases known : name ∈ commandNames
  swap
  · exact .inr ⟨_, by decide, .unknownCommand short object rfl
      fun other same => Option.some.inj same ▸ known⟩
  by_cases change : name = literal "rate"
  · subst change
    rcases rate with _ | token
    · exact .inr ⟨_, by decide, .rateMissing short object rfl rfl rfl⟩
    rcases found : PlaybackRate.fromToken token with _ | rate
    · exact .inr ⟨_, by decide, .unsupportedRate short object rfl rfl rfl
        (fromToken_eq_none.mp found)⟩
    · obtain rfl := fromToken_iff.mp found
      exact .inl ⟨short, _, _, object, .rate rate⟩
  rcases rate with _ | token
  · refine .inl ⟨short, ?_⟩
    simp only [commandNames, List.mem_cons, List.not_mem_nil, or_false, change] at known
    rcases known with rfl | rfl | rfl
    · exact ⟨_, _, object, .play⟩
    · exact ⟨_, _, object, .pause⟩
    · exact ⟨_, _, object, .restart⟩
  · exact .inr ⟨_, by decide, .rateUnexpected short object rfl rfl known change nofun⟩

/-- **The control messages.** The reader accepts the objects with the members of a control message
and reads their source texts. The parser accepts those of a command, and gives every other text
exactly one reason of the protocol. -/
theorem control_exact (text : Bytes) :
    (∀ fields, ControlReader.read text = some fields ↔ IsControlObject text fields) ∧
      (∀ command, (parsePlaybackCommand text).command = some command ↔
        text.length ≤ kMaxControlMessageBytes ∧
          ∃ fields, IsControlObject text fields ∧ Commands fields command) ∧
      ((parsePlaybackCommand text).command = none →
        (parsePlaybackCommand text).rejection ∈ rejectionReasons ∧
          ∀ reason, Rejects text reason ↔ reason = (parsePlaybackCommand text).rejection) := by
  refine ⟨fun fields => read_iff, fun command => ⟨fun parsed => ?_, ?_⟩, fun none => ?_⟩
  · rcases commands_or_rejects text with ⟨short, fields, other, object, commands⟩ | ⟨_, _, rejects⟩
    · rw [parse_commands short object commands] at parsed
      exact ⟨short, fields, object, Option.some.inj parsed ▸ commands⟩
    · rw [parse_rejects rejects] at parsed
      exact nomatch parsed
  · rintro ⟨short, fields, object, commands⟩
    rw [parse_commands short object commands]
  · rcases commands_or_rejects text with ⟨short, fields, other, object, commands⟩ |
      ⟨reason, known, rejects⟩
    · rw [parse_commands short object commands] at none
      exact nomatch none
    · have parsed := parse_rejects rejects
      rw [parsed]
      refine ⟨known, fun other => ⟨fun same => ?_, fun same => same ▸ rejects⟩⟩
      have both := (parse_rejects same).symm.trans parsed
      exact congrArg PlaybackCommandParse.rejection both

/-- The text of a rate command, its members in another order than that of the protocol. -/
def rateText : Bytes :=
  literal "\x7b\"rate\":0.5, \"command\":\"rate\",\"type\":\"control\"\x7d"

/-- A rate command is accepted; an object without members has no type. -/
theorem empty_object_rejected :
    (rateText.length ≤ kMaxControlMessageBytes ∧
      ∃ fields, IsControlObject rateText fields ∧ Commands fields (.setRate .half)) ∧
    IsControlObject (literal "\x7b\x7d") {} ∧ Rejects (literal "\x7b\x7d") "unknown_type" :=
  ⟨((control_exact rateText).2.1 _).mp (by decide),
    ((control_exact (literal "\x7b\x7d")).1 {}).mp (by decide),
    (((control_exact (literal "\x7b\x7d")).2.2 (by decide)).2 _).mpr (by decide)⟩

end AccessoryController.Replay
