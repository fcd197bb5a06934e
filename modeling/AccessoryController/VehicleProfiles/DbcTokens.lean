import AccessoryController.VehicleProfiles.DbcNumerals

/-!
# The tokens of DBC sources

What a DBC source is made of: words, punctuation, strings, integers and decimals, with whitespace
and comments between them. A source splits into the longest of these from its front on. No sign
stands directly in front of another one, and no number in front of a letter, an underscore or a
point.

## Main definitions

* `IsLexeme`: the lexemes of each kind
* `Front`: the lexeme at the front of a text
* `Denotes`: the value of a token
* `WithinLimits`: the bounds on a token
* `Tokenizes`: the tokens of a text that splits into lexemes

## Main results

* `Front.unique`: the front of a text fixes the lexeme that stands there
-/

namespace AccessoryController.VehicleProfiles

open Lexing

/-! ### Lexemes -/

inductive LexemeKind
  | blank
  | comment
  | token (kind : TokenKind)
  deriving DecidableEq, Repr

/-- The characters between the quotes of a string, with the content for which they stand. -/
inductive Quoted : List Char → List Char → Prop
  | nil : Quoted [] []
  | plain {c : Char} {body content : List Char} (quote : c ≠ '"') (escape : c ≠ '\\')
      (others : Quoted body content) : Quoted (c :: body) (c :: content)
  | escaped {c : Char} {body content : List Char} (special : c = '"' ∨ c = '\\')
      (others : Quoted body content) : Quoted ('\\' :: c :: body) (c :: content)

def IsLexeme : LexemeKind → List Char → Prop
  | .blank, raw => ∃ c ∈ whitespace, raw = [c]
  | .comment, raw => ∃ body, raw = '/' :: '/' :: body ∧ ∀ c ∈ body, isLineEnd c = false
  | .token .word, raw =>
    ∃ c body, raw = c :: body ∧ isWordStart c = true ∧ ∀ d ∈ body, isWordChar d = true
  | .token .punct, raw => ∃ c ∈ punctuation, raw = [c]
  | .token .string, raw => ∃ body content, raw = '"' :: (body ++ ['"']) ∧ Quoted body content
  | .token .int, raw => ∃ n : Numeral, n.spelling = raw ∧ n.IsInteger
  | .token .decimal, raw => ∃ n : Numeral, n.spelling = raw ∧ ¬n.IsInteger

/-- The lexeme `raw` stands at the front of `raw ++ rest`. -/
structure Front (kind : LexemeKind) (raw rest : List Char) : Prop where
  lexeme : IsLexeme kind raw
  longest : Longest IsLexeme raw rest
  single_sign : kind = .token .punct → ∀ c ∈ raw, isSign c = true →
    ∀ d ∈ rest.head?, isSign d = false
  delimited : kind = .token .int ∨ kind = .token .decimal →
    ∀ c ∈ rest.head?, isBoundary c = false

/-! ### Tokens -/

/-- The value of a token. -/
def Denotes : TokenKind → List Char → TokenValue → Prop
  | .word, raw, value | .punct, raw, value => value = .text (String.ofList raw)
  | .string, raw, value => ∃ body content, raw = '"' :: (body ++ ['"']) ∧ Quoted body content ∧
      value = .text (String.ofList content)
  | .int, raw, value => ∃ n : Numeral, n.spelling = raw ∧
      ∃ units : ℤ, (units : ℚ) = n.value ∧ value = .int units
  | .decimal, raw, value => ∃ n : Numeral, n.spelling = raw ∧ value = .fraction n.value

/-- The bounds on a lexeme: a token has so many bytes at most, and a number its bounds. -/
def WithinLimits (limits : LexerLimits) : LexemeKind → List Char → Prop
  | .token _, raw => (raw.map Char.utf8Size).sum ≤ limits.maxTokenBytes ∧
      ∀ n : Numeral, n.spelling = raw → n.WithinBounds
  | _, _ => True

/-- The exponent of a number has few enough digits to be converted. -/
def Convertible (raw : List Char) : Prop :=
  ∀ n : Numeral, n.spelling = raw → n.exponentDigits.length ≤ kMaxStrDigits

/-- The token that a lexeme at its place becomes, if any. -/
def Made (text : List Char) (sourceId : String) :
    ℕ × LexemeKind × List Char → Option Token → Prop
  | (start, .token kind, raw), some token => token.kind = kind ∧ token.text = String.ofList raw ∧
      Denotes kind raw token.value ∧
      token.span = spanOf text sourceId start (start + raw.length)
  | (_, .token _, _), none => False
  | (_, _, _), token => token = none

/-- The lexeme becomes no token. -/
def isSkipped : LexemeKind → Bool
  | .token _ => false
  | _ => true

/-- The tokens of a text that splits into lexemes. -/
structure Tokenizes (text : List Char) (sourceId : String)
    (lexemes : List (LexemeKind × List Char)) (tokens : List Token) : Prop where
  splits : Splits Front text lexemes
  made : List.Forall₂ (fun lexeme token => Made text sourceId lexeme (some token))
    ((placed 0 lexemes).filter fun lexeme => !isSkipped lexeme.2.1) tokens

/-- The span holds the place. -/
def Span.covers (span : Span) (place : ℕ × ℕ) : Bool :=
  toLex (span.line, span.column) ≤ toLex place && toLex place < toLex (span.endLine, span.endColumn)

/-- The first span ends before the second one begins. -/
def Span.Before (first second : Span) : Prop :=
  toLex (first.endLine, first.endColumn) ≤ toLex (second.line, second.column)

/-! ### The first characters of lexemes -/

/-- The characters with which the lexemes of a kind begin. -/
def Begins : LexemeKind → Char → Prop
  | .blank, c => c ∈ whitespace
  | .comment, c => c = '/'
  | .token .word, c => isWordStart c = true
  | .token .punct, c => c ∈ punctuation
  | .token .string, c => c = '"'
  | .token .int, c | .token .decimal, c => isSign c = true ∨ c.isDigit = true ∨ c = '.'

instance (kind : LexemeKind) (c : Char) : Decidable (Begins kind c) :=
  match kind with
  | .blank => inferInstanceAs (Decidable (c ∈ whitespace))
  | .comment => inferInstanceAs (Decidable (c = '/'))
  | .token .word => inferInstanceAs (Decidable (isWordStart c = true))
  | .token .punct => inferInstanceAs (Decidable (c ∈ punctuation))
  | .token .string => inferInstanceAs (Decidable (c = '"'))
  | .token .int => inferInstanceAs (Decidable (isSign c = true ∨ c.isDigit = true ∨ c = '.'))
  | .token .decimal => inferInstanceAs (Decidable (isSign c = true ∨ c.isDigit = true ∨ c = '.'))

/-- A number begins with a sign, a digit or a point. -/
theorem Numeral.begins (n : Numeral) :
    ∃ c rest, n.spelling = c :: rest ∧ (isSign c = true ∨ c.isDigit = true ∨ c = '.') := by
  cases sign : n.sign with
  | some c =>
    refine ⟨c, n.mantissa ++ n.exponentText, ?_, .inl (n.sign_valid c sign)⟩
    rw [n.spelling_eq, sign]
    rfl
  | none =>
    obtain ⟨c, rest, front, first⟩ := n.mantissa_front
    refine ⟨c, rest ++ n.exponentText, ?_, .inr first⟩
    rw [n.spelling_eq, sign, front]
    rfl

variable {kind : LexemeKind} {raw : List Char} {c : Char}

theorem IsLexeme.begins (lexeme : IsLexeme kind raw) :
    ∃ c rest, raw = c :: rest ∧ Begins kind c := by
  cases kind with
  | blank =>
    obtain ⟨c, mem, rfl⟩ := lexeme
    exact ⟨c, [], rfl, mem⟩
  | comment =>
    obtain ⟨body, rfl, -⟩ := lexeme
    exact ⟨'/', '/' :: body, rfl, rfl⟩
  | token kind =>
    cases kind with
    | word =>
      obtain ⟨c, body, rfl, start, -⟩ := lexeme
      exact ⟨c, body, rfl, start⟩
    | punct =>
      obtain ⟨c, mem, rfl⟩ := lexeme
      exact ⟨c, [], rfl, mem⟩
    | string =>
      obtain ⟨body, content, rfl, -⟩ := lexeme
      exact ⟨'"', body ++ ['"'], rfl, rfl⟩
    | int =>
      obtain ⟨n, rfl, -⟩ := lexeme
      exact n.begins
    | decimal =>
      obtain ⟨n, rfl, -⟩ := lexeme
      exact n.begins

/-- A lexeme at the front of a text begins with its first character. -/
theorem IsLexeme.begins_text {rest : List Char} (lexeme : IsLexeme kind raw)
    (front : raw <+: c :: rest) : Begins kind c := by
  obtain ⟨d, more, rfl, first⟩ := lexeme.begins
  obtain ⟨after, whole⟩ := front
  exact (List.cons_eq_cons.mp whole).1 ▸ first

theorem IsLexeme.ne_nil (lexeme : IsLexeme kind raw) : raw ≠ [] := by
  obtain ⟨c, rest, rfl, -⟩ := lexeme.begins
  exact List.cons_ne_nil c rest

theorem isWordStart_of_isDigit (digit : c.isDigit = true) : isWordStart c = false := by
  have high : c.val.toNat ≤ 57 := (Char.isDigit_iff_toNat.mp digit).2
  refine Bool.eq_false_iff.mpr fun start => ?_
  rcases Bool.or_eq_true_iff.mp start with alpha | underscore
  · rcases Bool.or_eq_true_iff.mp alpha with upper | lower
    · have above : 'A'.val ≤ c.val := (of_decide_eq_true upper).1
      exact absurd (Nat.le_trans (UInt32.le_iff_toNat_le.mp above) high) (by decide)
    · have above : 'a'.val ≤ c.val := of_decide_eq_true (Bool.and_eq_true_iff.mp lower).1
      exact absurd (Nat.le_trans (UInt32.le_iff_toNat_le.mp above) high) (by decide)
  · rw [beq_iff_eq] at underscore
    subst underscore
    exact absurd digit (by decide)

theorem begins_whitespace (mem : c ∈ whitespace) (first : Begins kind c) : kind = .blank := by
  simp only [whitespace, List.mem_cons, List.not_mem_nil, or_false] at mem
  rcases mem with rfl | rfl | rfl | rfl <;>
    rcases kind with _ | _ | (_ | _ | _ | _ | _) <;>
    first | rfl | exact absurd first (by decide)

theorem begins_slash (first : Begins kind '/') : kind = .comment := by
  rcases kind with _ | _ | (_ | _ | _ | _ | _) <;> first | rfl | exact absurd first (by decide)

theorem begins_quote (first : Begins kind '"') : kind = .token .string := by
  rcases kind with _ | _ | (_ | _ | _ | _ | _) <;> first | rfl | exact absurd first (by decide)

/-- Only punctuation and numbers begin with a punctuation mark, and numbers only with a sign. -/
theorem begins_punctuation (mem : c ∈ punctuation) (first : Begins kind c) : kind = .token .punct ∨
      isSign c = true ∧ (kind = .token .int ∨ kind = .token .decimal) := by
  simp only [punctuation, List.mem_cons, List.not_mem_nil, or_false] at mem
  rcases mem with rfl | rfl | rfl | rfl | rfl | rfl | rfl | rfl | rfl | rfl | rfl <;>
    rcases kind with _ | _ | (_ | _ | _ | _ | _) <;>
    first | decide | exact absurd first (by decide)

/-- A digit is none of the characters of other lexemes. -/
theorem plain_of_isDigit (digit : c.isDigit = true) :
    c ∉ whitespace ∧ c ∉ punctuation ∧ c ≠ '/' ∧ c ≠ '"' ∧ c ≠ '.' := by
  refine ⟨fun mem => ?_, fun mem => ?_, ne_of_isDigit digit rfl, ne_of_isDigit digit rfl,
    ne_of_isDigit digit rfl⟩
  · simp only [whitespace, List.mem_cons, List.not_mem_nil, or_false] at mem
    rcases mem with rfl | rfl | rfl | rfl <;> exact absurd digit (by decide)
  · simp only [punctuation, List.mem_cons, List.not_mem_nil, or_false] at mem
    rcases mem with rfl | rfl | rfl | rfl | rfl | rfl | rfl | rfl | rfl | rfl | rfl <;>
      exact absurd digit (by decide)

/-- The start of a word is none of the characters of other lexemes. -/
theorem plain_of_isWordStart (start : isWordStart c = true) :
    c ∉ whitespace ∧ c ∉ punctuation ∧ c ≠ '/' ∧ c ≠ '"' ∧ c ≠ '.' ∧ isSign c = false ∧
      c.isDigit = false := by
  have ne : ∀ d : Char, isWordStart d = false → c ≠ d := by
    rintro d other rfl
    exact absurd (start.symm.trans other) nofun
  refine ⟨fun mem => ?_, fun mem => ?_, ne _ rfl, ne _ rfl, ne _ rfl, ?_, ?_⟩
  · simp only [whitespace, List.mem_cons, List.not_mem_nil, or_false] at mem
    rcases mem with rfl | rfl | rfl | rfl <;> exact absurd start (by decide)
  · simp only [punctuation, List.mem_cons, List.not_mem_nil, or_false] at mem
    rcases mem with rfl | rfl | rfl | rfl | rfl | rfl | rfl | rfl | rfl | rfl | rfl <;>
      exact absurd start (by decide)
  · refine Bool.eq_false_iff.mpr fun sign => ?_
    rcases isSign_iff.mp sign with rfl | rfl <;> exact absurd start (by decide)
  · refine Bool.eq_false_iff.mpr fun digit => ?_
    exact absurd (start.symm.trans (isWordStart_of_isDigit digit)) nofun

theorem begins_wordStart (start : isWordStart c = true) (first : Begins kind c) :
    kind = .token .word := by
  obtain ⟨white, mark, slash, quote, point, sign, digit⟩ := plain_of_isWordStart start
  have number : ¬(isSign c = true ∨ c.isDigit = true ∨ c = '.') := by
    rw [sign, digit]
    exact fun h => h.elim nofun fun h => h.elim nofun point
  rcases kind with _ | _ | (_ | _ | _ | _ | _)
  · exact absurd first white
  · exact absurd first slash
  · rfl
  · exact absurd first number
  · exact absurd first number
  · exact absurd first quote
  · exact absurd first mark

theorem begins_number (number : c.isDigit = true ∨ c = '.') (first : Begins kind c) :
    kind = .token .int ∨ kind = .token .decimal := by
  rcases number with digit | rfl
  · obtain ⟨white, mark, slash, quote, -⟩ := plain_of_isDigit digit
    rcases kind with _ | _ | (_ | _ | _ | _ | _)
    · exact absurd first white
    · exact absurd first slash
    · exact absurd (first.symm.trans (isWordStart_of_isDigit digit)) nofun
    · exact .inl rfl
    · exact .inr rfl
    · exact absurd first quote
    · exact absurd first mark
  · rcases kind with _ | _ | (_ | _ | _ | _ | _) <;>
      first | decide | exact absurd first (by decide)

/-- The single character of a punctuation mark is no number. -/
theorem Numeral.spelling_ne_mark (n : Numeral) (mark : c ∈ punctuation) : n.spelling ≠ [c] := by
  intro spelled
  obtain ⟨d, rest, front, first⟩ := n.mantissa_front
  rw [n.spelling_eq, front] at spelled
  cases sign : n.sign with
  | some s =>
    rw [sign] at spelled
    cases spelled
  | none =>
    rw [sign] at spelled
    obtain ⟨rfl, -⟩ := List.cons_eq_cons.mp spelled
    rcases first with digit | rfl
    · exact (plain_of_isDigit digit).2.1 mark
    · exact absurd mark (by decide)

/-- The kind of a lexeme, from its characters. -/
def kindOf : List Char → LexemeKind
  | [] => .blank
  | c :: rest =>
    if c ∈ whitespace then .blank
    else if c = '/' then .comment
    else if c = '"' then .token .string
    else if isWordStart c then .token .word
    else if rest = [] ∧ c ∈ punctuation then .token .punct
    else if isInteger (c :: rest) then .token .int
    else .token .decimal

theorem kindOf_spelling (n : Numeral) :
    kindOf n.spelling = if n.IsInteger then .token .int else .token .decimal := by
  obtain ⟨c, rest, front, first⟩ := n.begins
  have plain : c ∉ whitespace ∧ c ≠ '/' ∧ c ≠ '"' ∧ ¬isWordStart c = true := by
    rcases first with sign | digit | rfl
    · rcases isSign_iff.mp sign with rfl | rfl <;> decide
    · obtain ⟨white, -, slash, quote, -⟩ := plain_of_isDigit digit
      exact ⟨white, slash, quote, by rw [isWordStart_of_isDigit digit]; exact Bool.false_ne_true⟩
    · decide
  have no_mark : ¬(rest = [] ∧ c ∈ punctuation) := by
    rintro ⟨rfl, mark⟩
    exact n.spelling_ne_mark mark front
  rw [front, kindOf, if_neg plain.1, if_neg plain.2.1, if_neg plain.2.2.1, if_neg plain.2.2.2,
    if_neg no_mark, ← front]
  exact if_congr (isInteger_spelling n) rfl rfl

theorem IsLexeme.kindOf_eq (lexeme : IsLexeme kind raw) : kindOf raw = kind := by
  cases kind with
  | blank =>
    obtain ⟨c, mem, rfl⟩ := lexeme
    exact if_pos mem
  | comment =>
    obtain ⟨body, rfl, -⟩ := lexeme
    rfl
  | token kind =>
    cases kind with
    | word =>
      obtain ⟨c, body, rfl, start, -⟩ := lexeme
      obtain ⟨white, -, slash, quote, -⟩ := plain_of_isWordStart start
      rw [kindOf, if_neg white, if_neg slash, if_neg quote, if_pos start]
    | punct =>
      obtain ⟨c, mem, rfl⟩ := lexeme
      simp only [punctuation, List.mem_cons, List.not_mem_nil, or_false] at mem
      rcases mem with rfl | rfl | rfl | rfl | rfl | rfl | rfl | rfl | rfl | rfl | rfl <;> rfl
    | string =>
      obtain ⟨body, content, rfl, -⟩ := lexeme
      rfl
    | int =>
      obtain ⟨n, rfl, integer⟩ := lexeme
      rw [kindOf_spelling, if_pos integer]
    | decimal =>
      obtain ⟨n, rfl, integer⟩ := lexeme
      rw [kindOf_spelling, if_neg integer]

/-- **The front of a text fixes the lexeme that stands there.** -/
theorem Front.unique (kind : LexemeKind) (raw rest : List Char) (kind' : LexemeKind)
    (raw' rest' : List Char) (same : raw ++ rest = raw' ++ rest') (front : Front kind raw rest)
    (front' : Front kind' raw' rest') : kind = kind' ∧ raw = raw' ∧ rest = rest' := by
  obtain ⟨rfl, rfl⟩ := Longest.unique same front.lexeme front.longest front'.lexeme front'.longest
  exact ⟨front.lexeme.kindOf_eq.symm.trans front'.lexeme.kindOf_eq, rfl, rfl⟩

end AccessoryController.VehicleProfiles
