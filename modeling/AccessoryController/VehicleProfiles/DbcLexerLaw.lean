import AccessoryController.VehicleProfiles.DbcTokens

/-!
# The lexer splits a source into its tokens

The lexer reads the lexeme at the front of what is left of a source, whatever it is. A source is
accepted exactly if it splits into lexemes within the limits; otherwise the lexer fails with a span
of the source, but for exponents spelled with more digits than are converted to an integer.

## Main results

* `locate_lt`: later characters have later places
* `scan_comes`, `scan_complete`: a round of the loop reads the lexeme at the front
* `tokenize_exact`: the tokens, the accepted sources and the failures
-/

namespace AccessoryController.VehicleProfiles

open Lexing

variable {text : List Char} {sourceId : String} {limits : LexerLimits}

/-! ### Places -/

variable {i : ℕ} {body content rest : List Char} {n : Numeral} {following : Option Char}
  {raw after : List Char} {c : Char} {index : ℕ} {lexemes : List (LexemeKind × List Char)}
  {tokens : List Token}

theorem length_takeWhile_mono (starts : List ℕ) {j : ℕ} (le : i ≤ j) :
    (starts.takeWhile (· ≤ i)).length ≤ (starts.takeWhile (· ≤ j)).length := by
  induction starts with
  | nil => exact Nat.le_refl 0
  | cons start starts ih =>
    by_cases before : start ≤ i
    · rw [List.takeWhile_cons, if_pos (decide_eq_true before), List.takeWhile_cons,
        if_pos (decide_eq_true (Nat.le_trans before le))]
      exact Nat.succ_le_succ ih
    · rw [List.takeWhile_cons, if_neg (by simpa using before)]
      exact Nat.zero_le _

/-- A place is not in front of the start of its line. -/
theorem line_start_le (text : List Char) (i : ℕ) :
    (lineStarts text).getD (bisectRight (lineStarts text) i - 1) 0 ≤ i := by
  have first : 0 < bisectRight (lineStarts text) i := by
    rw [bisectRight, lineStarts, List.takeWhile_cons, if_pos (decide_eq_true (Nat.zero_le i))]
    exact Nat.succ_pos _
  have within : bisectRight (lineStarts text) i - 1 <
      ((lineStarts text).takeWhile (· ≤ i)).length := Nat.sub_lt first Nat.one_pos
  have front : (lineStarts text).takeWhile (· ≤ i) <+: lineStarts text :=
    List.takeWhile_prefix _
  have before := List.mem_takeWhile_imp (List.getElem_mem within)
  rw [List.getD_eq_getElem?_getD,
    List.getElem?_eq_getElem (Nat.lt_of_lt_of_le within front.length_le), Option.getD_some,
    ← front.getElem within]
  exact of_decide_eq_true before

/-- **Later characters have later places.** -/
theorem locate_lt (text : List Char) {j : ℕ} (lt : i < j) :
    toLex (locate text i) < toLex (locate text j) := by
  have lines := length_takeWhile_mono (lineStarts text) (Nat.le_of_lt lt)
  have start := line_start_le text i
  rw [Prod.Lex.toLex_lt_toLex]
  simp only [locate]
  rcases Nat.lt_or_ge (bisectRight (lineStarts text) i - 1)
      (bisectRight (lineStarts text) j - 1) with earlier | later
  · exact .inl (Nat.succ_lt_succ earlier)
  · have same : bisectRight (lineStarts text) i - 1 = bisectRight (lineStarts text) j - 1 :=
      Nat.le_antisymm (Nat.sub_le_sub_right lines 1) later
    refine .inr ⟨by rw [same], ?_⟩
    rw [← same]
    omega

theorem locate_lt_iff (text : List Char) {j : ℕ} :
    toLex (locate text i) < toLex (locate text j) ↔ i < j := by
  refine ⟨fun lt => ?_, locate_lt text⟩
  by_contra ge
  rcases Nat.eq_or_lt_of_le (Nat.le_of_not_lt ge) with same | less
  · rw [same] at lt
    exact lt_irrefl _ lt
  · exact lt_asymm lt (locate_lt text less)

theorem locate_le_iff (text : List Char) {j : ℕ} :
    toLex (locate text i) ≤ toLex (locate text j) ↔ i ≤ j := by
  rw [← not_lt, locate_lt_iff, Nat.not_lt]

/-- The span of some places holds these. -/
theorem covers_spanOf (text : List Char) (sourceId : String) (start stop i : ℕ) :
    (spanOf text sourceId start stop).covers (locate text i) = true ↔ start ≤ i ∧ i < stop := by
  rw [Span.covers, Bool.and_eq_true, decide_eq_true_eq, decide_eq_true_eq]
  exact and_congr (locate_le_iff text) (locate_lt_iff text)

/-! ### Single tokens -/

theorem emit_eq (kind : TokenKind) (start : ℕ) (raw : List Char) (value : Option TokenValue) :
    emit text sourceId limits kind start raw value =
      if limits.maxTokenBytes < (raw.map Char.utf8Size).sum then
        .error (overflowError "token exceeds the request token-byte limit"
          (some (spanOf text sourceId start (start + raw.length))))
      else .ok ⟨kind, String.ofList raw, value.getD (.text (String.ofList raw)),
        spanOf text sourceId start (start + raw.length)⟩ := by
  rw [emit, checkSize]
  split <;> rfl

/-- The error has a span of the text. -/
def SpansText (text : List Char) (sourceId : String) (error : LexerError) : Prop :=
  ∃ start stop, start < stop ∧ stop ≤ text.length ∧
    error.span = some (spanOf text sourceId start stop)

/-! ### Strings -/

/-- The content of a string is read up to its closing quote. -/
theorem scanString_quoted (index : ℕ) (quoted : Quoted body content) (stop : ℕ) (rest : List Char) :
    scanString text sourceId index stop (body ++ '"' :: rest) =
      .ok (content, stop + body.length) := by
  induction quoted generalizing stop with
  | nil => rw [List.nil_append, scanString]; rfl
  | @plain c body content quote escape _ ih =>
    rw [List.cons_append, scanString, ih]
    · simp only [List.length_cons, Nat.add_assoc, Nat.add_comm 1]
      rfl
    all_goals grind
  | @escaped c body content special _ ih =>
    rw [List.cons_append, List.cons_append, scanString, if_pos special, ih]
    simp only [List.length_cons, Nat.add_assoc]
    rw [show 2 + body.length = body.length + 2 from Nat.add_comm 2 _]
    rfl

/-- What is read as a string is one, and what fails has a span of the text. -/
theorem scanString_sound (index stop : ℕ) (rest : List Char)
    (inside : stop + rest.length = text.length) (behind : index < stop) :
    (∃ body content after, rest = body ++ '"' :: after ∧ Quoted body content ∧
        scanString text sourceId index stop rest = .ok (content, stop + body.length)) ∨
      ∃ error, scanString text sourceId index stop rest = .error (.lexerError error) ∧
        SpansText text sourceId error := by
  fun_induction scanString text sourceId index stop rest with
  | case1 stop =>
    exact .inr ⟨_, rfl, index, text.length, by simpa [← inside] using behind, Nat.le_refl _, rfl⟩
  | case2 stop after => exact .inl ⟨[], [], after, rfl, .nil, rfl⟩
  | case3 stop =>
    rw [List.length_singleton] at inside
    exact .inr ⟨_, rfl, stop, min (stop + 2) text.length, by omega, Nat.min_le_right _ _, rfl⟩
  | case4 stop escaped rest special ih =>
    rw [List.length_cons, List.length_cons] at inside
    rcases ih (by omega) (by omega) with
      ⟨body, content, after, rfl, quoted, read⟩ | ⟨error, failed, span⟩
    · refine .inl ⟨'\\' :: escaped :: body, escaped :: content, after, rfl,
        .escaped special quoted, ?_⟩
      rw [read, List.length_cons, List.length_cons,
        show stop + (body.length + 1 + 1) = stop + 2 + body.length by omega]
      rfl
    · exact .inr ⟨error, by rw [failed]; rfl, span⟩
  | case5 stop escaped rest _ =>
    rw [List.length_cons, List.length_cons] at inside
    exact .inr ⟨_, rfl, stop, min (stop + 2) text.length, by omega, Nat.min_le_right _ _, rfl⟩
  | case6 stop c rest quote escape_end escape ih =>
    have no_escape : c ≠ '\\' := fun same => by
      cases rest with
      | nil => exact escape_end same rfl
      | cons d rest => exact escape d rest same rfl
    rw [List.length_cons] at inside
    rcases ih (by omega) (by omega) with
      ⟨body, content, after, rfl, quoted, read⟩ | ⟨error, failed, span⟩
    · refine .inl ⟨c :: body, c :: content, after, rfl, .plain quote no_escape quoted, ?_⟩
      rw [read, List.length_cons, show stop + (body.length + 1) = stop + 1 + body.length by omega]
      rfl
    · exact .inr ⟨error, by rw [failed]; rfl, span⟩

/-! ### Numbers -/

/-- A number at the front is matched whole if no longer one stands there. -/
theorem matchDecimal_longest (longest : Longest IsLexeme n.spelling rest) :
    matchDecimal (n.spelling ++ rest) = some n.spelling := by
  obtain ⟨raw, matched, longer⟩ := matchDecimal_spelling n rest
  obtain ⟨m, after, rfl, split⟩ := numeral_of_matchDecimal matched
  have lexeme : ∃ kind, IsLexeme kind m.spelling := by
    by_cases integer : m.IsInteger
    · exact ⟨.token .int, m, rfl, integer⟩
    · exact ⟨.token .decimal, m, rfl, integer⟩
  obtain ⟨kind, lexeme⟩ := lexeme
  have shorter := longest kind m.spelling (split ▸ List.prefix_append _ _) lexeme
  rw [matched, (List.append_inj split (Nat.le_antisymm longer shorter)).1]

/-- What is made of an integer. -/
theorem emitNumber_int (index : ℕ) (delimited : following.any isBoundary = false)
    (integer : n.IsInteger) :
    emitNumber text sourceId limits index n.spelling following =
      if limits.maxTokenBytes < (n.spelling.map Char.utf8Size).sum then
        .error (overflowError "token exceeds the request token-byte limit"
          (some (spanOf text sourceId index (index + n.spelling.length))))
      else if kMaxMantissaDigits < (n.digits.dropWhile (· = '0')).length then
        .error (overflowError "numeric token exceeds exact-value bounds"
          (some (spanOf text sourceId index (index + n.spelling.length))))
      else .ok ⟨.int, String.ofList n.spelling, .int (signValue n.sign * digitsValue n.digits),
        spanOf text sourceId index (index + n.spelling.length)⟩ := by
  rw [emitNumber]
  simp only [delimited, Bool.false_eq_true, if_false, (isInteger_spelling n).mpr integer, if_true,
    integer.unsigned, signOf_spelling, emit_eq, checkSize]
  by_cases long : limits.maxTokenBytes < (n.spelling.map Char.utf8Size).sum
  · rw [if_pos long, if_pos long]
    rfl
  rw [if_neg long, if_neg long]
  by_cases many : kMaxMantissaDigits < (n.digits.dropWhile (· = '0')).length
  · rw [if_pos many, if_pos many]
    rfl
  have units : intOf (if n.digits.dropWhile (· = '0') = [] then ['0']
      else n.digits.dropWhile (· = '0')) = .ok (digitsValue n.digits : ℤ) :=
    intOf_significant n.all_digits (Nat.le_of_not_lt many)
  rw [if_neg many, if_neg many, units]
  exact if_neg long

/-- What is made of a decimal. -/
theorem emitNumber_decimal (index : ℕ) (delimited : following.any isBoundary = false)
    (integer : ¬n.IsInteger) {parsed : Except Raised ℚ} : parseDecimal n.spelling = parsed →
    emitNumber text sourceId limits index n.spelling following =
      match parsed with
      | .error (.lexerError error) => .error (.lexerError
          { error with span := some (spanOf text sourceId index (index + n.spelling.length)) })
      | .error .valueError => .error .valueError
      | .ok value => emit text sourceId limits .decimal index n.spelling (some (.fraction value)) := by
  intro parses
  have fraction : isInteger n.spelling = false :=
    Bool.eq_false_iff.mpr fun h => integer ((isInteger_spelling n).mp h)
  have undelimited : ¬following.any isBoundary = true := by
    rw [delimited]
    exact Bool.false_ne_true
  have notInteger : ¬isInteger n.spelling = true := by
    rw [fraction]
    exact Bool.false_ne_true
  rcases parsed with (error | _) | value <;>
    rw [emitNumber, if_neg undelimited, if_neg notInteger, parses]

/-- The value of a decimal within the bounds. -/
theorem parseDecimal_ok_iff {value : ℚ} : parseDecimal n.spelling = .ok value ↔
    n.WithinBounds ∧ n.exponentDigits.length ≤ kMaxStrDigits ∧ value = n.value := by
  rw [parseDecimal_spelling]
  split
  · rename_i exceeded
    refine ⟨nofun, fun h => ?_⟩
    rcases exceeded with digits | exponent
    · exact absurd h.1.digits (Nat.not_le_of_lt digits)
    · exact absurd h.1.exponent (Nat.not_le_of_lt exponent)
  · rename_i within
    obtain ⟨digits, exponent⟩ := not_or.mp within
    split
    · rename_i long
      exact ⟨nofun, fun h => absurd h.2.1 (Nat.not_le_of_lt long)⟩
    · rename_i convertible
      split
      · rename_i scale
        exact ⟨nofun, fun h => absurd h.1.scale (Nat.not_le_of_lt scale)⟩
      · rename_i scale
        constructor
        · intro same
          exact ⟨⟨Nat.le_of_not_lt digits, Nat.le_of_not_lt exponent, Nat.le_of_not_lt scale⟩,
            Nat.le_of_not_lt convertible, (Except.ok.inj same).symm⟩
        · rintro ⟨-, -, rfl⟩
          rfl

theorem parseDecimal_valueError (failed : parseDecimal n.spelling = .error .valueError) :
    kMaxStrDigits < n.exponentDigits.length := by
  rw [parseDecimal_spelling] at failed
  split at failed
  · cases failed
  · split at failed
    · assumption
    · split at failed <;> cases failed

/-- A number within the limits becomes a token, if its exponent can be converted. -/
theorem emitNumber_complete (index : ℕ) (n : Numeral) (delimited : following.any isBoundary = false)
    (bounds : n.WithinBounds) (short : (n.spelling.map Char.utf8Size).sum ≤ limits.maxTokenBytes)
    (convertible : n.exponentDigits.length ≤ kMaxStrDigits) :
    ∃ token, emitNumber text sourceId limits index n.spelling following = .ok token := by
  by_cases integer : n.IsInteger
  · rw [emitNumber_int index delimited integer, if_neg (Nat.not_lt.mpr short),
      if_neg (Nat.not_lt.mpr bounds.digits)]
    exact ⟨_, rfl⟩
  · rw [emitNumber_decimal index delimited integer
      (parseDecimal_ok_iff.mpr ⟨bounds, convertible, rfl⟩)]
    exact ⟨_, (emit_eq _ _ _ _).trans (if_neg (Nat.not_lt.mpr short))⟩

/-- Numbers with one spelling are integers together, with the same digits. -/
theorem Numeral.IsInteger.congr {m : Numeral} (integer : n.IsInteger)
    (same : m.spelling = n.spelling) : m.IsInteger ∧ m.digits = n.digits := by
  have integer' : m.IsInteger :=
    (isInteger_spelling m).mp (same ▸ (isInteger_spelling n).mpr integer)
  exact ⟨integer', by rw [← integer'.unsigned, same, integer.unsigned]⟩

/-- What becomes of a number: a token that denotes it, or an error. -/
theorem emitNumber_cases (index : ℕ) (n : Numeral)
    (inside : index + (n.spelling ++ rest).length ≤ text.length) :
    (∃ kind token, emitNumber text sourceId limits index n.spelling rest.head? = .ok token ∧
        (∀ c ∈ rest.head?, isBoundary c = false) ∧ IsLexeme (.token kind) n.spelling ∧
        WithinLimits limits (.token kind) n.spelling ∧
        Made text sourceId (index, .token kind, n.spelling) (some token) ∧
        (kind = .int ∨ kind = .decimal)) ∨
      (∃ error, emitNumber text sourceId limits index n.spelling rest.head? =
          .error (.lexerError error) ∧ SpansText text sourceId error) ∨
      emitNumber text sourceId limits index n.spelling rest.head? = .error .valueError ∧
        kMaxStrDigits < n.exponentDigits.length := by
  obtain ⟨c, more, spelled, -⟩ := n.begins
  have some_char : index < index + n.spelling.length := by
    rw [spelled, List.length_cons]
    omega
  rw [List.length_append] at inside
  by_cases boundary : rest.head?.any isBoundary = true
  · refine .inr (.inl ⟨_, by rw [emitNumber, if_pos boundary]; rfl, index,
      index + n.spelling.length + 1, by omega, ?_, rfl⟩)
    cases rest with
    | nil => cases boundary
    | cons d rest =>
      rw [List.length_cons] at inside
      omega
  have delimited : rest.head?.any isBoundary = false := Bool.eq_false_iff.mpr boundary
  have apart : ∀ c ∈ rest.head?, isBoundary c = false := fun c first => by
    rwa [Option.mem_def.mp first] at delimited
  by_cases integer : n.IsInteger
  · rw [emitNumber_int index delimited integer]
    by_cases long : limits.maxTokenBytes < (n.spelling.map Char.utf8Size).sum
    · rw [if_pos long]
      exact .inr (.inl ⟨_, rfl, index, _, some_char, by omega, rfl⟩)
    by_cases many : kMaxMantissaDigits < (n.digits.dropWhile (· = '0')).length
    · rw [if_neg long, if_pos many]
      exact .inr (.inl ⟨_, rfl, index, _, some_char, by omega, rfl⟩)
    rw [if_neg long, if_neg many]
    refine .inl ⟨.int, _, rfl, apart, ⟨n, rfl, integer⟩, ⟨Nat.le_of_not_lt long, ?_⟩,
      ⟨rfl, rfl, ⟨n, rfl, _, integer.value_eq.symm, rfl⟩, rfl⟩, .inl rfl⟩
    intro m same
    obtain ⟨integer', digits⟩ := integer.congr same
    exact integer'.withinBounds_iff.mpr (digits ▸ Nat.le_of_not_lt many)
  · rcases parses : parseDecimal n.spelling with raised | value
    · rw [emitNumber_decimal index delimited integer parses]
      cases raised with
      | lexerError error =>
        exact .inr (.inl ⟨_, rfl, index, _, some_char, by omega, rfl⟩)
      | valueError => exact .inr (.inr ⟨rfl, parseDecimal_valueError parses⟩)
    · rw [emitNumber_decimal index delimited integer parses]
      obtain ⟨bounds, convertible, rfl⟩ := parseDecimal_ok_iff.mp parses
      by_cases long : limits.maxTokenBytes < (n.spelling.map Char.utf8Size).sum
      · exact .inr (.inl ⟨_, (emit_eq _ _ _ _).trans (if_pos long), index, _, some_char,
          by omega, rfl⟩)
      refine .inl ⟨.decimal, _, (emit_eq _ _ _ _).trans (if_neg long), apart, ⟨n, rfl, integer⟩,
        ⟨Nat.le_of_not_lt long, ?_⟩, ⟨rfl, rfl, ⟨n, rfl, rfl⟩, rfl⟩, .inr rfl⟩
      intro m same
      rw [← same] at parses
      exact (parseDecimal_ok_iff.mp parses).1

/-! ### The longest lexemes -/

/-- The longest among the lexemes of the kinds that begin with the first character. -/
theorem longest_of (whole : c :: rest = raw ++ after)
    (others : ∀ kind other, Begins kind c → other <+: c :: rest → IsLexeme kind other →
      other.length ≤ raw.length) : Longest IsLexeme raw after := by
  intro kind other front lexeme
  rw [← whole] at front
  exact others kind other (lexeme.begins_text front) front lexeme

theorem longest_blank (white : c ∈ whitespace) (rest : List Char) : Longest IsLexeme [c] rest := by
  refine longest_of rfl fun kind other first _ lexeme => ?_
  rw [begins_whitespace white first] at lexeme
  obtain ⟨d, -, rfl⟩ := lexeme
  exact Nat.le_refl 1

theorem longest_run {p : Char → Bool} (whole : c :: rest = raw ++ after)
    (all : raw = (c :: rest).takeWhile p)
    (others : ∀ kind other, Begins kind c → IsLexeme kind other → ∀ d ∈ other, p d = true) :
    Longest IsLexeme raw after := by
  refine longest_of whole fun kind other first front lexeme => ?_
  obtain ⟨tail, split⟩ := front
  rw [all, ← split]
  exact length_le_takeWhile (others kind other first lexeme) tail

/-- A punctuation mark is the longest lexeme unless a number begins with it. -/
theorem longest_mark (mark : c ∈ punctuation)
    (no_number : isSign c = true → ∀ d ∈ rest.head?, ¬(d.isDigit = true ∨ d = '.')) :
    Longest IsLexeme [c] rest := by
  refine longest_of rfl fun kind other first front lexeme => ?_
  rcases begins_punctuation mark first with rfl | ⟨sign, number⟩
  · obtain ⟨d, -, rfl⟩ := lexeme
    exact Nat.le_refl 1
  · have spelled : ∃ n : Numeral, n.spelling = other := by
      rcases number with rfl | rfl
      · exact lexeme.imp fun _ h => h.1
      · exact lexeme.imp fun _ h => h.1
    obtain ⟨n, rfl⟩ := spelled
    obtain ⟨tail, split⟩ := front
    -- the mantissa stands behind the sign
    obtain ⟨d, more, mantissa, digit⟩ := n.mantissa_front
    rw [n.spelling_eq, mantissa] at split
    cases signed : n.sign with
    | none =>
      rw [signed] at split
      obtain ⟨rfl, -⟩ := List.cons_eq_cons.mp split
      have unsigned := n.mantissa_unsigned [] d (by rw [mantissa]; rfl)
      exact absurd (sign.symm.trans unsigned) nofun
    | some s =>
      rw [signed] at split
      obtain ⟨-, tail_eq⟩ := List.cons_eq_cons.mp split
      exact absurd digit (no_number sign d (congrArg List.head? tail_eq).symm)

/-- What is matched as a number is the longest lexeme. -/
theorem longest_number (number : isSign c = true ∨ c = '.' ∨ c.isDigit = true)
    (matched : matchDecimal (c :: rest) = some raw) (whole : c :: rest = raw ++ after) :
    Longest IsLexeme raw after := by
  have numbers : ∀ kind other, kind = .token .int ∨ kind = .token .decimal →
      other <+: c :: rest → IsLexeme kind other → other.length ≤ raw.length := by
    intro kind other kinds front lexeme
    have spelled : ∃ n : Numeral, n.spelling = other := by
      rcases kinds with rfl | rfl
      · exact lexeme.imp fun _ h => h.1
      · exact lexeme.imp fun _ h => h.1
    obtain ⟨n, rfl⟩ := spelled
    obtain ⟨tail, split⟩ := front
    obtain ⟨raw', matched', longer⟩ := matchDecimal_spelling n tail
    rw [split, matched] at matched'
    exact Option.some.inj matched' ▸ longer
  refine longest_of whole fun kind other first front lexeme => ?_
  by_cases mark : c ∈ punctuation
  · rcases begins_punctuation mark first with rfl | ⟨-, kinds⟩
    · obtain ⟨d, -, rfl⟩ := lexeme
      obtain ⟨n, -, rfl, -⟩ := numeral_of_matchDecimal matched
      obtain ⟨d, more, spelled, -⟩ := n.begins
      rw [spelled]
      exact Nat.succ_le_succ (Nat.zero_le _)
    · exact numbers kind other kinds front lexeme
  · have plain : c.isDigit = true ∨ c = '.' := by
      rcases number with sign | point | digit
      · rcases isSign_iff.mp sign with rfl | rfl
        · exact absurd (by decide) mark
        · exact absurd (by decide) mark
      · exact .inr point
      · exact .inl digit
    exact numbers kind other (begins_number plain first) front lexeme

/-- Strings at the front of a text are the same. -/
theorem longest_string (quoted : Quoted body content) :
    Longest IsLexeme ('"' :: (body ++ ['"'])) after := by
  refine longest_of rfl fun kind other first front lexeme => ?_
  rw [begins_quote first] at lexeme
  obtain ⟨body', content', rfl, quoted'⟩ := lexeme
  obtain ⟨tail, split⟩ := front
  simp only [List.append_eq, List.append_assoc, List.cons_append, List.nil_append,
    List.cons.injEq, true_and] at split
  have read : scanString [] "" 0 0 (body ++ '"' :: after) = .ok (content, 0 + body.length) :=
    scanString_quoted 0 quoted 0 after
  rw [← split, scanString_quoted 0 quoted' 0 tail] at read
  simp only [Except.ok.injEq, Prod.mk.injEq, Nat.zero_add] at read
  simp only [List.length_cons, List.length_append, read.2]
  exact Nat.le_refl _

/-! ### A round of the loop -/

/-- What a round comes to: the lexeme at the front, or an error. -/
def Comes (text : List Char) (sourceId : String) (limits : LexerLimits) (index : ℕ)
    (front : List Char) (result : Except Raised (Option Token × ℕ)) : Prop :=
  (∃ kind raw after token, front = raw ++ after ∧ result = .ok (token, raw.length) ∧
      Front kind raw after ∧ WithinLimits limits kind raw ∧
      Made text sourceId (index, kind, raw) token) ∨
    (∃ error, result = .error (.lexerError error) ∧ SpansText text sourceId error) ∨
    result = .error .valueError ∧ ∃ (n : Numeral) (after : List Char), front = n.spelling ++ after ∧
      kMaxStrDigits < n.exponentDigits.length

/-- A token with its own text as its value. -/
theorem comes_emit {kind : TokenKind} {front : List Char} {length : ℕ}
    (whole : front = raw ++ after) (inside : index + front.length = text.length)
    (there : Front (.token kind) raw after) (took : length = raw.length) {value : Option TokenValue}
    (denotes : Denotes kind raw (value.getD (.text (String.ofList raw))))
    (no_number : kind ≠ .int ∧ kind ≠ .decimal) :
    Comes text sourceId limits index front
      (do
        let token ← emit text sourceId limits kind index raw value
        pure (some token, length)) := by
  rw [emit_eq]
  by_cases long : limits.maxTokenBytes < (raw.map Char.utf8Size).sum
  · rw [if_pos long]
    have some_char := List.length_pos_of_ne_nil there.lexeme.ne_nil
    rw [whole, List.length_append] at inside
    exact .inr (.inl ⟨_, rfl, index, index + raw.length, by omega, by omega, rfl⟩)
  · rw [if_neg long]
    refine .inl ⟨.token kind, raw, after, some ⟨kind, _, _, _⟩, whole, by rw [took]; rfl, there,
      ⟨Nat.le_of_not_lt long, fun n spelled => ?_⟩, rfl, rfl, denotes, rfl⟩
    -- no number is spelled like a lexeme of another kind
    have kinds := there.lexeme.kindOf_eq
    rw [← spelled, kindOf_spelling] at kinds
    split at kinds
    · exact absurd (LexemeKind.token.inj kinds).symm no_number.1
    · exact absurd (LexemeKind.token.inj kinds).symm no_number.2

theorem scan_string (index : ℕ) (rest : List Char) :
    scan text sourceId limits index '"' rest = (do
      let scanned ← scanString text sourceId index (index + 1) rest
      let length := scanned.2 + 1 - index
      let token ← emit text sourceId limits .string index (('"' :: rest).take length)
        (some (.text (String.ofList scanned.1)))
      pure (some token, length)) := rfl

theorem scan_quoted (quoted : Quoted body content) (index : ℕ) (after : List Char) :
    scan text sourceId limits index '"' (body ++ '"' :: after) = (do
      let token ← emit text sourceId limits .string index ('"' :: (body ++ ['"']))
        (some (.text (String.ofList content)))
      pure (some token, ('"' :: (body ++ ['"'])).length)) := by
  have length : index + 1 + body.length + 1 - index = ('"' :: (body ++ ['"'])).length := by
    simp only [List.length_cons, List.length_append, List.length_nil]
    omega
  have taken : ('"' :: (body ++ '"' :: after)).take (index + 1 + body.length + 1 - index) =
      '"' :: (body ++ ['"']) := by
    rw [length, show '"' :: (body ++ '"' :: after) = '"' :: (body ++ ['"']) ++ after by
      simp only [List.cons_append, List.append_assoc, List.nil_append], List.take_left]
  rw [scan_string, scanString_quoted index quoted (index + 1) after]
  change (do
    let token ← emit text sourceId limits .string index
      (('"' :: (body ++ '"' :: after)).take (index + 1 + body.length + 1 - index))
      (some (.text (String.ofList content)))
    pure (some token, index + 1 + body.length + 1 - index)) = _
  rw [taken, length]

theorem comes_string (inside : index + ('"' :: rest).length = text.length) :
    Comes text sourceId limits index ('"' :: rest) (scan text sourceId limits index '"' rest) := by
  have place := inside
  rw [List.length_cons] at place
  rcases @scanString_sound text sourceId index (index + 1) rest (by omega) (by omega) with
    ⟨body, content, after, rfl, quoted, -⟩ | ⟨error, failed, span⟩
  · have whole : '"' :: (body ++ '"' :: after) = '"' :: (body ++ ['"']) ++ after := by
      simp only [List.cons_append, List.append_assoc, List.nil_append]
    have there : Front (.token .string) ('"' :: (body ++ ['"'])) after :=
      ⟨⟨body, content, rfl, quoted⟩, longest_string quoted, by simp, by simp⟩
    rw [scan_quoted quoted]
    exact comes_emit whole inside there rfl ⟨body, content, rfl, quoted, rfl⟩
      ⟨by simp, by simp⟩
  · have scanned : scan text sourceId limits index '"' rest = .error (.lexerError error) := by
      rw [scan_string, failed]
      rfl
    rw [scanned]
    exact .inr (.inl ⟨error, rfl, span⟩)

theorem comes_number (number : isSign c = true ∨ c = '.' ∨ c.isDigit = true)
    (inside : index + (c :: rest).length = text.length) :
    Comes text sourceId limits index (c :: rest)
      (match matchDecimal (c :: rest) with
        | none => .error (syntaxError "invalid numeric token"
            (some (spanOf text sourceId index (index + 1))))
        | some raw => do
          let token ← emitNumber text sourceId limits index raw
            ((c :: rest).drop raw.length).head?
          pure (some token, raw.length)) := by
  rcases matched : matchDecimal (c :: rest) with _ | raw
  · rw [List.length_cons] at inside
    exact .inr (.inl ⟨_, rfl, index, index + 1, by omega, by omega, rfl⟩)
  · obtain ⟨n, after, rfl, whole⟩ := numeral_of_matchDecimal matched
    have behind : (c :: rest).drop n.spelling.length = after := by
      rw [whole, List.drop_left]
    dsimp only
    rw [behind]
    rcases @emitNumber_cases text sourceId limits after index n
        (by rw [← whole]; exact Nat.le_of_eq inside) with
      ⟨kind, token, emitted, apart, lexeme, within, made, -⟩ | ⟨error, failed, span⟩ |
        ⟨failed, long⟩
    · rw [emitted]
      refine .inl ⟨.token kind, n.spelling, after, some token, whole, rfl,
        ⟨lexeme, longest_number number matched whole, ?_, fun _ => apart⟩, within, made⟩
      rintro ⟨⟩
      obtain ⟨d, mark, spelled⟩ := lexeme
      exact absurd spelled (n.spelling_ne_mark mark)
    · rw [failed]
      exact .inr (.inl ⟨error, rfl, span⟩)
    · rw [failed]
      exact .inr (.inr ⟨rfl, n, after, whole, long⟩)

theorem isWordChar_of_isWordStart (start : isWordStart c = true) : isWordChar c = true := by
  rcases Bool.or_eq_true_iff.mp start with alpha | underscore
  · rw [isWordChar, Char.isAlphanum, alpha, Bool.true_or, Bool.true_or]
  · rw [isWordChar, underscore, Bool.or_true]

theorem comes_word (inside : index + (c :: rest).length = text.length) :
    Comes text sourceId limits index (c :: rest)
      (match matchWord (c :: rest) with
        | none => .error (syntaxError "unexpected character"
            (some (spanOf text sourceId index (index + 1))))
        | some raw => do
          let token ← emit text sourceId limits .word index raw none
          pure (some token, raw.length)) := by
  by_cases start : isWordStart c = true
  · have matched : matchWord (c :: rest) = some (c :: rest.takeWhile isWordChar) := if_pos start
    have whole : c :: rest = c :: rest.takeWhile isWordChar ++ rest.dropWhile isWordChar := by
      rw [List.cons_append, List.takeWhile_append_dropWhile]
    have all : c :: rest.takeWhile isWordChar = (c :: rest).takeWhile isWordChar := by
      rw [List.takeWhile_cons, if_pos (isWordChar_of_isWordStart start)]
    have there : Front (.token .word) (c :: rest.takeWhile isWordChar)
        (rest.dropWhile isWordChar) := by
      refine ⟨⟨c, _, rfl, start, fun d mem => List.mem_takeWhile_imp mem⟩,
        longest_run whole all fun kind other first lexeme => ?_, nofun, nofun⟩
      rw [begins_wordStart start first] at lexeme
      obtain ⟨d, body, rfl, start', body_all⟩ := lexeme
      exact List.forall_mem_cons.mpr ⟨isWordChar_of_isWordStart start', body_all⟩
    rw [matched]
    exact comes_emit whole inside there rfl rfl ⟨nofun, nofun⟩
  · have matched : matchWord (c :: rest) = none := if_neg start
    rw [List.length_cons] at inside
    rw [matched]
    exact .inr (.inl ⟨_, rfl, index, index + 1, by omega, by omega, rfl⟩)

theorem comes_comment (slash : rest.head? = some '/') :
    Comes text sourceId limits index ('/' :: rest)
      (.ok (none, (('/' :: rest).takeWhile fun c => !isLineEnd c).length)) := by
  obtain ⟨more, rfl⟩ : ∃ more, rest = '/' :: more := by
    cases rest with
    | nil => cases slash
    | cons d more => exact ⟨more, by rw [Option.some.inj slash]⟩
  have body : ∀ c ∈ more.takeWhile (fun c => !isLineEnd c), isLineEnd c = false := by
    intro c mem
    simpa only [Bool.not_eq_true'] using List.mem_takeWhile_imp mem
  have whole : '/' :: '/' :: more = ('/' :: '/' :: more).takeWhile (fun c => !isLineEnd c) ++
      ('/' :: '/' :: more).dropWhile fun c => !isLineEnd c :=
    List.takeWhile_append_dropWhile.symm
  refine .inl ⟨.comment, _, _, none, whole, rfl, ⟨⟨_, rfl, body⟩,
    longest_run whole rfl fun kind other first lexeme => ?_, nofun, nofun⟩, trivial, rfl⟩
  rw [begins_slash first] at lexeme
  obtain ⟨body', rfl, all⟩ := lexeme
  intro d mem
  rcases List.mem_cons.mp mem with rfl | mem
  · rfl
  rcases List.mem_cons.mp mem with rfl | mem
  · rfl
  · rw [all d mem]
    rfl

/-- **A round of the loop reads the lexeme at the front**, or fails with a span of the text. -/
theorem scan_comes (inside : index + (c :: rest).length = text.length) :
    Comes text sourceId limits index (c :: rest) (scan text sourceId limits index c rest) := by
  by_cases white : c ∈ whitespace
  · refine .inl ⟨.blank, [c], rest, none, rfl, ?_,
      ⟨⟨c, white, rfl⟩, longest_blank white rest, nofun, nofun⟩, trivial, rfl⟩
    simp only [scan, if_pos white, List.length_singleton]
  by_cases comment : c = '/' ∧ rest.head? = some '/'
  · simp only [scan, if_neg white, if_pos comment]
    obtain ⟨rfl, slash⟩ := comment
    exact comes_comment slash
  by_cases quote : c = '"'
  · subst quote
    exact comes_string inside
  by_cases signs : isSign c = true ∧ rest.head?.any isSign = true
  · simp only [scan, if_neg white, if_neg comment, if_neg quote, if_pos signs]
    refine .inr (.inl ⟨_, rfl, index, index + 2, by omega, ?_, rfl⟩)
    cases rest with
    | nil => exact absurd signs.2 Bool.false_ne_true
    | cons d rest =>
      rw [List.length_cons, List.length_cons] at inside
      omega
  by_cases mark : c ∈ punctuation ∧
      ¬(isSign c = true ∧ (rest.head?.any Char.isDigit = true ∨ rest.head? = some '.'))
  · have no_number : isSign c = true → ∀ d ∈ rest.head?, ¬(d.isDigit = true ∨ d = '.') := by
      rintro sign d first (digit | rfl)
      · exact mark.2 ⟨sign, .inl (by rw [Option.mem_def.mp first]; exact digit)⟩
      · exact mark.2 ⟨sign, .inr first⟩
    have there : Front (.token .punct) [c] rest := by
      refine ⟨⟨c, mark.1, rfl⟩, longest_mark mark.1 no_number, fun _ d mem sign e first => ?_,
        nofun⟩
      obtain rfl := List.mem_singleton.mp mem
      refine Bool.eq_false_iff.mpr fun again => signs ⟨sign, ?_⟩
      rw [Option.mem_def.mp first]
      exact again
    simp only [scan, if_neg white, if_neg comment, if_neg quote, if_neg signs, if_pos mark]
    exact comes_emit rfl inside there rfl rfl ⟨nofun, nofun⟩
  by_cases number : isSign c = true ∨ c = '.' ∨ c.isDigit = true
  · simp only [scan, if_neg white, if_neg comment, if_neg quote, if_neg signs, if_neg mark,
      if_pos number]
    exact comes_number number inside
  · simp only [scan, if_neg white, if_neg comment, if_neg quote, if_neg signs, if_neg mark,
      if_neg number]
    exact comes_word inside

/-- A sign is the longest lexeme only if no number begins with it; a point behind it then begins no
lexeme. -/
theorem no_number_behind (sign : isSign c = true) (longest : Longest IsLexeme [c] after)
    (splits : Splits Front after lexemes) :
    ¬(after.head?.any Char.isDigit = true ∨ after.head? = some '.') := by
  have valid : ∀ d ∈ some c, isSign d = true := fun d same => Option.some.inj same ▸ sign
  rintro (digit | point)
  · cases after with
    | nil => exact absurd digit Bool.false_ne_true
    | cons d after =>
      -- the sign with the digit is a longer number
      have longer := longest (.token .int) [c, d] ⟨after, rfl⟩
        ⟨⟨some c, [d], none, none, valid, nofun, fun e mem =>
          List.mem_singleton.mp mem ▸ digit⟩, rfl, rfl, rfl⟩
      exact absurd longer (by decide : ¬2 ≤ 1)
  · -- only a number begins with the point, and with the sign it is a longer one
    obtain ⟨kind, raw, rest, rfl, front⟩ :=
      splits.exists_front fun none_there => by rw [none_there] at point; cases point
    obtain ⟨d, more, rfl, first⟩ := front.lexeme.begins
    obtain rfl : d = '.' := Option.some.inj point
    have number : ∃ n : Numeral, n.spelling = '.' :: more := by
      have lexeme := front.lexeme
      rcases begins_number (.inr rfl) first with rfl | rfl
      · exact lexeme.imp fun _ h => h.1
      · exact lexeme.imp fun _ h => h.1
    obtain ⟨n, spelled⟩ := number
    have unsigned : n.sign = none := by
      cases signed : n.sign with
      | none => rfl
      | some s =>
        rw [n.spelling_eq, signed] at spelled
        have := n.sign_valid s signed
        rw [(List.cons_eq_cons.mp spelled).1] at this
        exact absurd this (by decide)
    let m : Numeral :=
      ⟨some c, n.whole, n.fraction, n.exponent, valid, n.some_digit, n.all_digits⟩
    have spelled' : m.spelling = c :: '.' :: more := by
      rw [← spelled, n.spelling_eq, unsigned]
      rfl
    have lexeme : ∃ kind, IsLexeme kind m.spelling := by
      by_cases integer : m.IsInteger
      · exact ⟨.token .int, m, rfl, integer⟩
      · exact ⟨.token .decimal, m, rfl, integer⟩
    obtain ⟨kind', lexeme⟩ := lexeme
    rw [spelled'] at lexeme
    have longer := longest kind' _ ⟨rest, rfl⟩ lexeme
    rw [List.length_cons, List.length_cons, List.length_singleton] at longer
    omega

/-- A token within the limit is emitted. -/
theorem emit_complete {kind : TokenKind} (index : ℕ) (value : Option TokenValue)
    (within : WithinLimits limits (.token kind) raw) :
    ∃ token, emit text sourceId limits kind index raw value = .ok token :=
  ⟨_, (emit_eq _ _ _ _).trans (if_neg (Nat.not_lt.mpr within.1))⟩

/-- A number begins with a digit or a point, or with a sign in front of one. -/
theorem Numeral.front_cases (whole : c :: rest = n.spelling ++ after) :
    isSign c = true ∧ (∃ d ∈ rest.head?, d.isDigit = true ∨ d = '.') ∨
      c.isDigit = true ∨ c = '.' := by
  obtain ⟨d, more, mantissa, digit⟩ := n.mantissa_front
  rw [n.spelling_eq, mantissa] at whole
  cases signed : n.sign with
  | none =>
    rw [signed] at whole
    obtain ⟨rfl, -⟩ := List.cons_eq_cons.mp whole
    exact .inr digit
  | some s =>
    rw [signed] at whole
    obtain ⟨rfl, tail⟩ := List.cons_eq_cons.mp whole
    exact .inl ⟨n.sign_valid c signed, d, congrArg List.head? tail, digit⟩

/-- A number at the front is read. -/
theorem scan_number (index : ℕ) (whole : c :: rest = n.spelling ++ after)
    (longest : Longest IsLexeme n.spelling after)
    (delimited : ∀ d ∈ after.head?, isBoundary d = false) (bounds : n.WithinBounds)
    (short : (n.spelling.map Char.utf8Size).sum ≤ limits.maxTokenBytes)
    (convertible : n.exponentDigits.length ≤ kMaxStrDigits) :
    ∃ result, scan text sourceId limits index c rest = .ok result := by
  have first := Numeral.front_cases whole
  have plain : c ∉ whitespace ∧ c ≠ '/' ∧ c ≠ '"' := by
    rcases first with ⟨sign, -⟩ | digit | rfl
    · rcases isSign_iff.mp sign with rfl | rfl <;> decide
    · obtain ⟨white, -, slash, quote, -⟩ := plain_of_isDigit digit
      exact ⟨white, slash, quote⟩
    · decide
  have no_signs : ¬(isSign c = true ∧ rest.head?.any isSign = true) := by
    rintro ⟨sign, again⟩
    rcases first with ⟨-, d, head, digit | rfl⟩ | digit | rfl
    · rw [Option.mem_def.mp head] at again
      exact absurd (again.symm.trans (not_isSign_of_isDigit digit)) nofun
    · rw [Option.mem_def.mp head] at again
      exact absurd again (by decide)
    · exact absurd (sign.symm.trans (not_isSign_of_isDigit digit)) nofun
    · exact absurd sign (by decide)
  have no_mark : ¬(c ∈ punctuation ∧
      ¬(isSign c = true ∧ (rest.head?.any Char.isDigit = true ∨ rest.head? = some '.'))) := by
    rintro ⟨mark, alone⟩
    rcases first with ⟨sign, d, head, digit | rfl⟩ | digit | rfl
    · exact alone ⟨sign, .inl (by rw [Option.mem_def.mp head]; exact digit)⟩
    · exact alone ⟨sign, .inr head⟩
    · exact (plain_of_isDigit digit).2.1 mark
    · exact absurd mark (by decide)
  have number : isSign c = true ∨ c = '.' ∨ c.isDigit = true := by
    rcases first with ⟨sign, -⟩ | digit | point
    · exact .inl sign
    · exact .inr (.inr digit)
    · exact .inr (.inl point)
  have apart : after.head?.any isBoundary = false := by
    cases behind : after.head? with
    | none => rfl
    | some d => exact delimited d behind
  obtain ⟨token, emitted⟩ := @emitNumber_complete text sourceId limits _ index n apart bounds short
    convertible
  have matched := matchDecimal_longest longest
  rw [← whole] at matched
  have behind : (c :: rest).drop n.spelling.length = after := by rw [whole, List.drop_left]
  refine ⟨(some token, n.spelling.length), ?_⟩
  simp only [scan, if_neg plain.1, if_neg (fun h => plain.2.1 (And.left h)), if_neg plain.2.2,
    if_neg no_signs, if_neg no_mark, if_pos number, matched, behind, emitted]
  rfl

/-- A word at the front is read. -/
theorem scan_word (index : ℕ) (start : isWordStart c = true) (all : ∀ d ∈ body, isWordChar d = true)
    (longest : Longest IsLexeme (c :: body) after)
    (within : WithinLimits limits (.token .word) (c :: body)) :
    ∃ result, scan text sourceId limits index c (body ++ after) = .ok result := by
  obtain ⟨white, mark, slash, quote, point, sign, digit⟩ := plain_of_isWordStart start
  have no_sign : ¬isSign c = true := Bool.eq_false_iff.mp sign
  have no_number : ¬(isSign c = true ∨ c = '.' ∨ c.isDigit = true) := by
    rw [sign, digit]
    exact fun h => h.elim nofun fun h => h.elim point nofun
  have matched : matchWord (c :: (body ++ after)) =
      some (c :: (body ++ after).takeWhile isWordChar) := if_pos start
  -- no longer word stands there
  have longer := longest (.token .word) (c :: (body ++ after).takeWhile isWordChar)
    (List.cons_prefix_cons.mpr ⟨rfl, List.takeWhile_prefix _⟩)
    ⟨c, _, rfl, start, fun d mem => List.mem_takeWhile_imp mem⟩
  rw [List.takeWhile_append_of_pos all] at longer matched
  have nothing : after.takeWhile isWordChar = [] := by
    simp only [List.length_cons, List.length_append] at longer
    exact List.length_eq_zero_iff.mp (by omega)
  rw [nothing, List.append_nil] at matched
  obtain ⟨token, emitted⟩ := @emit_complete text sourceId limits _ _ index none within
  refine ⟨(some token, (c :: body).length), ?_⟩
  simp only [scan, if_neg white, if_neg (fun h => slash (And.left h)), if_neg quote,
    if_neg (fun h => no_sign (And.left h)), if_neg (fun h => mark (And.left h)),
    if_neg no_number, matched, emitted]
  rfl

/-- A punctuation mark at the front is read. -/
theorem scan_mark (index : ℕ) (front : Front (.token .punct) [c] rest)
    (splits : Splits Front rest lexemes) (within : WithinLimits limits (.token .punct) [c]) :
    ∃ result, scan text sourceId limits index c rest = .ok result := by
  obtain ⟨d, mark, same⟩ := front.lexeme
  obtain rfl : c = d := List.singleton_inj.mp same
  have plain : c ∉ whitespace ∧ c ≠ '/' ∧ c ≠ '"' := by
    simp only [punctuation, List.mem_cons, List.not_mem_nil, or_false] at mark
    rcases mark with rfl | rfl | rfl | rfl | rfl | rfl | rfl | rfl | rfl | rfl | rfl <;> decide
  have no_signs : ¬(isSign c = true ∧ rest.head?.any isSign = true) := by
    rintro ⟨sign, again⟩
    cases behind : rest.head? with
    | none =>
      rw [behind] at again
      cases again
    | some e =>
      rw [behind] at again
      have single := front.single_sign rfl c List.mem_cons_self sign e behind
      exact absurd (again.symm.trans single) Bool.true_eq_false.mp
  have alone : c ∈ punctuation ∧
      ¬(isSign c = true ∧ (rest.head?.any Char.isDigit = true ∨ rest.head? = some '.')) :=
    ⟨mark, fun h => no_number_behind h.1 front.longest splits h.2⟩
  obtain ⟨token, emitted⟩ := @emit_complete text sourceId limits _ _ index none within
  refine ⟨(some token, 1), ?_⟩
  simp only [scan, if_neg plain.1, if_neg (fun h => plain.2.1 (And.left h)), if_neg plain.2.2,
    if_neg no_signs, if_pos alone, emitted]
  rfl

/-- **A lexeme at the front is read** if it is within the limits and what is behind it splits. -/
theorem scan_complete {kind : LexemeKind} (inside : index + (c :: rest).length = text.length)
    (whole : c :: rest = raw ++ after) (front : Front kind raw after)
    (within : WithinLimits limits kind raw) (convertible : Convertible raw)
    (splits : Splits Front after lexemes) :
    ∃ token, scan text sourceId limits index c rest = .ok (token, raw.length) := by
  -- it suffices that the round does not fail, for the front fixes the lexeme
  suffices reads : ∃ result, scan text sourceId limits index c rest = .ok result by
    obtain ⟨result, scanned⟩ := reads
    rcases @scan_comes text sourceId limits rest c index inside with
      ⟨kind', raw', after', token, whole', scanned', front', -⟩ | ⟨error, failed, -⟩ | ⟨failed, -⟩
    · obtain ⟨-, rfl, -⟩ := Front.unique _ _ _ _ _ _ (whole.symm.trans whole') front front'
      exact ⟨token, scanned'⟩
    · exact absurd (scanned.symm.trans failed) nofun
    · exact absurd (scanned.symm.trans failed) nofun
  cases kind with
  | blank =>
    obtain ⟨d, white, rfl⟩ := front.lexeme
    obtain ⟨rfl, -⟩ := List.cons_eq_cons.mp whole
    exact ⟨(none, 1), by rw [scan, if_pos white]⟩
  | comment =>
    obtain ⟨body, rfl, -⟩ := front.lexeme
    obtain ⟨rfl, rfl⟩ := List.cons_eq_cons.mp whole
    exact ⟨_, rfl⟩
  | token kind =>
    cases kind with
    | word =>
      obtain ⟨d, body, rfl, start, all⟩ := front.lexeme
      obtain ⟨rfl, rfl⟩ := List.cons_eq_cons.mp whole
      exact scan_word index start all front.longest within
    | punct =>
      obtain ⟨d, mark, rfl⟩ := front.lexeme
      obtain ⟨rfl, rfl⟩ := List.cons_eq_cons.mp whole
      exact scan_mark index front splits within
    | string =>
      obtain ⟨body, content, rfl, quoted⟩ := front.lexeme
      obtain ⟨rfl, tail⟩ := List.cons_eq_cons.mp whole
      obtain ⟨token, emitted⟩ := @emit_complete text sourceId limits _ _ index
        (some (.text (String.ofList content))) within
      rw [tail, List.append_eq, List.append_assoc, List.cons_append, List.nil_append,
        scan_quoted quoted, emitted]
      exact ⟨_, rfl⟩
    | int =>
      obtain ⟨n, rfl, -⟩ := front.lexeme
      exact scan_number index whole front.longest (front.delimited (.inl rfl)) (within.2 n rfl)
        within.1 (convertible n rfl)
    | decimal =>
      obtain ⟨n, rfl, -⟩ := front.lexeme
      exact scan_number index whole front.longest (front.delimited (.inr rfl)) (within.2 n rfl)
        within.1 (convertible n rfl)

/-! ### The tokens of a source -/

/-- The lexemes that become tokens, with these. -/
theorem made_tokens {lexemes : List (ℕ × LexemeKind × List Char)} {read : List (Option Token)}
    (made : List.Forall₂ (Made text sourceId) lexemes read) :
    List.Forall₂ (fun lexeme token => Made text sourceId lexeme (some token))
      (lexemes.filter fun lexeme => !isSkipped lexeme.2.1) (read.filterMap id) := by
  induction made with
  | nil => exact .nil
  | @cons lexeme token lexemes read first _ ih =>
    obtain ⟨start, kind, raw⟩ := lexeme
    cases kind with
    | token kind =>
      cases token with
      | none => exact absurd first id
      | some token =>
        rw [List.filter_cons_of_pos rfl]
        exact .cons first ih
    | blank =>
      obtain rfl : token = none := first
      rwa [List.filter_cons_of_neg Bool.false_ne_true, List.filterMap_cons_none rfl]
    | comment =>
      obtain rfl : token = none := first
      rwa [List.filter_cons_of_neg Bool.false_ne_true, List.filterMap_cons_none rfl]

/-- The span of a token is the place of its lexeme. -/
theorem Made.span {lexeme : ℕ × LexemeKind × List Char} {token : Token}
    (made : Made text sourceId lexeme (some token)) :
    token.span = spanOf text sourceId lexeme.1 (lexeme.1 + lexeme.2.2.length) := by
  obtain ⟨start, kind, raw⟩ := lexeme
  cases kind with
  | token kind => exact made.2.2.2
  | blank => cases made
  | comment => cases made

/-- **The tokens of an accepted source** are made of the lexemes into which it splits. -/
theorem tokenize_sound (accepted : tokenize text sourceId limits = .ok tokens) :
    ∃ lexemes, Tokenizes text sourceId lexemes tokens ∧
      ∀ kind raw, (kind, raw) ∈ lexemes → WithinLimits limits kind raw := by
  rcases ran : Lexing.run (scan text sourceId limits) 0 text with raised | read
  · rw [tokenize, ran] at accepted
    cases accepted
  rw [tokenize, ran] at accepted
  obtain rfl : read.filterMap id = tokens := Except.ok.inj accepted
  have spec : ∀ index c rest token taken, index + (c :: rest).length = text.length →
      scan text sourceId limits index c rest = .ok (token, taken) →
      ∃ kind raw after, c :: rest = raw ++ after ∧ raw ≠ [] ∧ taken = raw.length ∧
        (Front kind raw after ∧ WithinLimits limits kind raw) ∧
        Made text sourceId (index, kind, raw) token := by
    intro index c rest token taken inside scanned
    rcases @scan_comes text sourceId limits rest c index inside with
      ⟨kind, raw, after, token', whole, scanned', front, within, made⟩ | ⟨_, failed, -⟩ |
        ⟨failed, -⟩
    · rw [scanned] at scanned'
      cases scanned'
      exact ⟨kind, raw, after, whole, front.lexeme.ne_nil, rfl, ⟨front, within⟩, made⟩
    · exact absurd (scanned.symm.trans failed) nofun
    · exact absurd (scanned.symm.trans failed) nofun
  obtain ⟨lexemes, splits, made⟩ := Lexing.run_sound spec (Nat.zero_add _) ran
  refine ⟨lexemes, ⟨splits.mono fun _ _ _ _ h => h.1, made_tokens made⟩, fun kind raw mem => ?_⟩
  obtain ⟨_, _, -, -, within⟩ := splits.front mem
  exact within

section

variable (tokenizes : Tokenizes text sourceId lexemes tokens)
include tokenizes

/-- The spans of the tokens are the places of their lexemes. -/
theorem Tokenizes.spans :
    tokens.map Token.span =
      ((placed 0 lexemes).filter fun lexeme => !isSkipped lexeme.2.1).map fun lexeme =>
        spanOf text sourceId lexeme.1 (lexeme.1 + lexeme.2.2.length) := by
  have made := tokenizes.made
  generalize (placed 0 lexemes).filter (fun lexeme => !isSkipped lexeme.2.1) = kept at made ⊢
  clear tokenizes
  induction made with
  | nil => rfl
  | cons first _ ih => rw [List.map_cons, List.map_cons, first.span, ih]

/-- The tokens stand one behind the other. -/
theorem Tokenizes.pairwise : tokens.Pairwise fun a b => a.span.Before b.span := by
  rw [← List.pairwise_map, tokenizes.spans, List.pairwise_map]
  exact ((pairwise_placed 0 lexemes).filter _).imp fun apart => (locate_le_iff text).mpr apart

/-- **Every character is in one token, or in whitespace or a comment.** -/
theorem Tokenizes.countP (inside : i < text.length) :
    tokens.countP (fun token => token.span.covers (locate text i)) +
      ((placed 0 lexemes).filter fun lexeme => isSkipped lexeme.2.1).countP (holds i) = 1 := by
  have once : (placed 0 lexemes).countP (holds i) = 1 := by
    refine countP_holds (Nat.zero_le i) ?_
    rw [tokenizes.splits.flatten, Nat.zero_add]
    exact inside
  have covered : tokens.countP (fun token => token.span.covers (locate text i)) =
      ((placed 0 lexemes).filter fun lexeme => !isSkipped lexeme.2.1).countP (holds i) := by
    have spans := congrArg (List.countP fun span => span.covers (locate text i)) tokenizes.spans
    rw [List.countP_map, List.countP_map] at spans
    refine spans.trans (List.countP_congr fun lexeme _ => ?_)
    simp only [Function.comp_apply, covers_spanOf, holds, Bool.and_eq_true, decide_eq_true_eq]
  rw [covered, Nat.add_comm, ← once]
  exact (List.countP_eq_countP_filter_add _ (holds i) fun lexeme => isSkipped lexeme.2.1).symm

end

/-- The tokenizer fails within a text, where a round does. -/
theorem tokenize_error {raised : Raised}
    (failed : tokenize text sourceId limits = .error raised) :
    (∃ error, raised = .lexerError error ∧ SpansText text sourceId error) ∨
      raised = .valueError ∧ ∃ (before : List Char) (n : Numeral) (after : List Char),
        text = before ++ n.spelling ++ after ∧ kMaxStrDigits < n.exponentDigits.length := by
  rcases ran : Lexing.run (scan text sourceId limits) 0 text with raised' | read
  swap
  · rw [tokenize, ran] at failed
    cases failed
  rw [tokenize, ran] at failed
  obtain rfl : raised' = raised := Except.error.inj failed
  have spec : ∀ index c rest token taken, index + (c :: rest).length = text.length →
      scan text sourceId limits index c rest = .ok (token, taken) →
      ∃ raw after, c :: rest = raw ++ after ∧ raw ≠ [] ∧ taken = raw.length := by
    intro index c rest token taken inside scanned
    rcases @scan_comes text sourceId limits rest c index inside with
      ⟨kind, raw, after, token', whole, scanned', front, -⟩ | ⟨_, failed, -⟩ | ⟨failed, -⟩
    · rw [scanned] at scanned'
      cases scanned'
      exact ⟨raw, after, whole, front.lexeme.ne_nil, rfl⟩
    · exact absurd (scanned.symm.trans failed) nofun
    · exact absurd (scanned.symm.trans failed) nofun
  obtain ⟨before, c, rest, whole, inside, stopped⟩ := Lexing.run_error spec (Nat.zero_add _) ran
  rcases @scan_comes text sourceId limits rest c _ inside with
    ⟨_, _, _, _, -, scanned, -⟩ | ⟨error, failed, span⟩ | ⟨failed, n, after, split, long⟩
  · exact absurd (stopped.symm.trans scanned) nofun
  · exact .inl ⟨error, Except.error.inj (stopped.symm.trans failed), span⟩
  · refine .inr ⟨Except.error.inj (stopped.symm.trans failed), before, n, after, ?_, long⟩
    rw [whole, split, List.append_assoc]

/-- A source that splits into lexemes within the limits is accepted. -/
theorem tokenize_complete (sourceId : String) (splits : Splits Front text lexemes)
    (within : ∀ kind raw, (kind, raw) ∈ lexemes → WithinLimits limits kind raw ∧ Convertible raw) :
    ∃ tokens, tokenize text sourceId limits = .ok tokens := by
  have bounded : Splits (fun kind raw rest => Front kind raw rest ∧
      WithinLimits limits kind raw ∧ Convertible raw) text lexemes :=
    splits.mono fun kind raw rest mem front => ⟨front, within kind raw mem⟩
  obtain ⟨tokens, ran⟩ := Lexing.run_complete (fun index c rest kind raw after lexemes inside whole
    _ front others => @scan_complete text sourceId limits rest raw after c index lexemes kind inside
      whole front.1 front.2.1 front.2.2 (others.mono fun _ _ _ _ h => h.1))
    bounded (Nat.zero_add text.length)
  exact ⟨tokens.filterMap id, by rw [tokenize, ran]; rfl⟩

/-- **Tokens are exact**: an accepted source splits into lexemes, the longest first, and its tokens
are theirs, with their values; the tokens stand one behind the other, and every character is in one
of them, or in whitespace or a comment. The sources that split into lexemes within the limits are
accepted. A failure has a span of the source. Exponents that are spelled with more digits than are
converted to an integer are left out. -/
theorem tokenize_exact (text : List Char) (sourceId : String) (limits : LexerLimits) :
    (∀ tokens, tokenize text sourceId limits = .ok tokens → ∃ lexemes,
        Tokenizes text sourceId lexemes tokens ∧
        (∀ kind raw, (kind, raw) ∈ lexemes → WithinLimits limits kind raw) ∧
        tokens.Pairwise (fun a b => a.span.Before b.span) ∧
        ∀ i < text.length, tokens.countP (fun token => token.span.covers (locate text i)) +
          ((placed 0 lexemes).filter fun lexeme => isSkipped lexeme.2.1).countP (holds i) = 1) ∧
      (∀ lexemes, Splits Front text lexemes →
        (∀ kind raw, (kind, raw) ∈ lexemes → WithinLimits limits kind raw ∧ Convertible raw) →
        ∃ tokens, tokenize text sourceId limits = .ok tokens) ∧
      (∀ error, tokenize text sourceId limits = .error (.lexerError error) →
        SpansText text sourceId error) ∧
      (tokenize text sourceId limits = .error .valueError →
        ∃ (before : List Char) (n : Numeral) (after : List Char),
          text = before ++ n.spelling ++ after ∧ kMaxStrDigits < n.exponentDigits.length) := by
  refine ⟨fun tokens accepted => ?_, fun lexemes splits within => ?_, fun error failed => ?_,
    fun failed => ?_⟩
  · obtain ⟨lexemes, tokenizes, within⟩ := tokenize_sound accepted
    exact ⟨lexemes, tokenizes, within, tokenizes.pairwise, fun i => tokenizes.countP⟩
  · exact tokenize_complete sourceId splits within
  · rcases tokenize_error failed with ⟨error', same, span⟩ | ⟨other, -⟩
    · cases same
      exact span
    · cases other
  · rcases tokenize_error failed with ⟨error', other, -⟩ | ⟨-, found⟩
    · cases other
    · exact found

/-- One with an exponent of five thousand splits into one number but exceeds the bounds. -/
theorem bounded_exponent_refused :
    ¬∀ (text : List Char) (sourceId : String) (limits : LexerLimits),
      (∃ lexemes, Splits Front text lexemes) →
        ∃ tokens, tokenize text sourceId limits = .ok tokens := by
  intro accepts
  let n : Numeral := ⟨none, ['1'], none, some ⟨'e', none, ['5', '0', '0', '0'], .inl rfl, nofun,
    by decide, List.all_eq_true.mp rfl⟩, nofun, by decide, List.all_eq_true.mp rfl⟩
  have splits : Splits Front n.spelling [(.token .decimal, n.spelling)] := by
    have longest : Longest IsLexeme n.spelling [] := fun _ _ front _ => by
      rw [List.append_nil] at front
      exact front.length_le
    have front : Front (.token .decimal) n.spelling [] :=
      ⟨⟨n, rfl, by decide⟩, longest, nofun, nofun⟩
    simpa only [List.append_nil] using Splits.cons (by decide) front .nil
  obtain ⟨tokens, accepted⟩ := accepts n.spelling "demo-a" ⟨4096⟩ ⟨_, splits⟩
  obtain ⟨lexemes, tokenizes, within⟩ := tokenize_sound accepted
  obtain rfl := Splits.unique Front.unique splits tokenizes.splits
  have bounds := (within _ _ List.mem_cons_self).2 n rfl
  exact absurd bounds.scale (by decide)

end AccessoryController.VehicleProfiles
