import AccessoryController.Library.Lexing
import AccessoryController.Library.Numerals
import AccessoryController.VehicleProfiles.DbcCompose

/-!
# The lexer of DBC sources

A decoded source becomes tokens with exact values: words, punctuation, strings, integers and
decimals. Whitespace and comments are dropped, and everything else that stands between the tokens
is an error with its place. Tokens are bounded in bytes by the request, and numbers in their digits
and exponents by the lexer itself.

## Main definitions

* `Token`: a token with its spelling, its value and its place
* `matchDecimal`, `matchWord`: the patterns of the lexer
* `parseDecimal`: the exact value of a decimal
* `tokenize`: the tokens of a text
-/

namespace AccessoryController.VehicleProfiles

open Numerals (value)

/-! ### Tokens and failures -/

inductive TokenKind
  | word | int | decimal | string | punct
  deriving DecidableEq, Repr

/-- The value of a token: a text, an integer or a fraction. -/
inductive TokenValue
  | text (text : String)
  | int (value : ℤ)
  | fraction (value : ℚ)
  deriving DecidableEq, Repr

structure Token where
  kind : TokenKind
  text : String
  value : TokenValue
  span : Span
  deriving DecidableEq, Repr

/-- A fatal source error with a stable code. -/
structure LexerError where
  code : String
  reason : String
  span : Option Span := none
  deriving DecidableEq, Repr

/-- What the lexer raises: its own errors, or what the conversion of a text to an integer raises. -/
inductive Raised
  | lexerError (error : LexerError)
  | valueError
  deriving DecidableEq, Repr

structure LexerLimits where
  maxTokenBytes : ℕ

def kMaxExponent : ℕ := 4096

def kMaxMantissaDigits : ℕ := 4000

/-- `int` converts no text of more digits than these, leading zeros included. -/
def kMaxStrDigits : ℕ := 4300

def syntaxError (reason : String) (span : Option Span := none) : Raised :=
  .lexerError ⟨"dbc_syntax_error", reason, span⟩

def overflowError (reason : String) (span : Option Span := none) : Raised :=
  .lexerError ⟨"resource_overflow", reason, span⟩

/-! ### Characters -/

def punctuation : List Char := [':', '|', '@', '(', ')', '[', ']', ',', ';', '+', '-']

def whitespace : List Char := [' ', '\t', '\r', '\n']

def isSign (c : Char) : Bool := c == '+' || c == '-'

def isLineEnd (c : Char) : Bool := c == '\r' || c == '\n'

def isWordStart (c : Char) : Bool := c.isAlpha || c == '_'

def isWordChar (c : Char) : Bool := c.isAlphanum || c == '_'

/-- The characters that no number may be followed by. -/
def isBoundary (c : Char) : Bool := isWordChar c || c == '.'

def digitOf (c : Char) : ℕ := c.toNat - '0'.toNat

/-- The number that decimal digits stand for. -/
def digitsValue (digits : List Char) : ℕ := value 10 (digits.map digitOf)

/-! ### Patterns -/

def matchSign : List Char → List Char
  | [] => []
  | c :: _ => if isSign c then [c] else []

def matchDigits (text : List Char) : List Char := text.takeWhile Char.isDigit

/-- `[0-9]+(?:\.[0-9]*)?|\.[0-9]+` at the front of the text. -/
def matchMantissa (text : List Char) : Option (List Char) :=
  let whole := matchDigits text
  match text.drop whole.length with
  | '.' :: rest =>
    if whole = [] ∧ matchDigits rest = [] then none else some (whole ++ '.' :: matchDigits rest)
  | _ => if whole = [] then none else some whole

/-- `(?:[eE][+-]?[0-9]+)?` at the front of the text. -/
def matchExponent : List Char → List Char
  | [] => []
  | e :: rest =>
    let sign := matchSign rest
    let digits := matchDigits (rest.drop sign.length)
    if (e = 'e' ∨ e = 'E') ∧ digits ≠ [] then e :: (sign ++ digits) else []

/-- `[+-]?(?:[0-9]+(?:\.[0-9]*)?|\.[0-9]+)(?:[eE][+-]?[0-9]+)?` at the front of the text. -/
def matchDecimal (text : List Char) : Option (List Char) :=
  let sign := matchSign text
  let unsigned := text.drop sign.length
  (matchMantissa unsigned).map fun mantissa =>
    sign ++ mantissa ++ matchExponent (unsigned.drop mantissa.length)

/-- The text is `[+-]?[0-9]+`. -/
def isInteger (text : List Char) : Bool :=
  let digits := text.drop (matchSign text).length
  digits ≠ [] && digits.all Char.isDigit

/-- `[A-Za-z_][A-Za-z0-9_]*` at the front of the text. -/
def matchWord : List Char → Option (List Char)
  | [] => none
  | c :: rest => if isWordStart c then some (c :: rest.takeWhile isWordChar) else none

/-! ### Numbers -/

def signOf (text : List Char) : ℤ := if text.head? = some '-' then -1 else 1

/-- `int` of a text that is an integer. -/
def intOf (text : List Char) : Except Raised ℤ :=
  let digits := text.dropWhile isSign
  if kMaxStrDigits < digits.length then .error .valueError
  else .ok (signOf text * digitsValue digits)

/-- The value of an exponent, which may be missing. -/
def exponentOf (exponent : List Char) : Except Raised ℤ :=
  if exponent = [] then .ok 0 else intOf exponent

/-- The exact value of a complete decimal token. -/
def parseDecimal (text : List Char) : Except Raised ℚ :=
  if matchDecimal text ≠ some text then .error (syntaxError "invalid numeric token")
  else
    let lower := text.map Char.toLower
    let mantissa := lower.takeWhile (· ≠ 'e')
    let exponent := (lower.dropWhile (· ≠ 'e')).drop 1
    let unsigned := mantissa.dropWhile isSign
    let whole := unsigned.takeWhile (· ≠ '.')
    let fraction := (unsigned.dropWhile (· ≠ '.')).drop 1
    let digits := (whole ++ fraction).dropWhile (· = '0')
    if kMaxMantissaDigits < digits.length ∨
        4 < (exponent.dropWhile fun c => isSign c || c == '0').length then
      .error (overflowError "numeric token exceeds exact-value bounds")
    else do
      let shift ← exponentOf exponent
      let scale := shift - fraction.length
      if kMaxExponent < scale.natAbs then
        .error (overflowError "numeric exponent exceeds exact-value bounds")
      else
        let units ← intOf (if digits = [] then ['0'] else digits)
        pure (signOf mantissa * (units * (10 : ℚ) ^ scale))

/-! ### Places -/

/-- The places behind the line endings of a text that starts at `index`. -/
def lineEnds : ℕ → List Char → List ℕ
  | _, [] => []
  | index, '\r' :: '\n' :: rest => (index + 2) :: lineEnds (index + 2) rest
  | index, c :: rest =>
    if isLineEnd c then (index + 1) :: lineEnds (index + 1) rest else lineEnds (index + 1) rest

def lineStarts (text : List Char) : List ℕ := 0 :: lineEnds 0 text

/-- How many of the ascending starts are not behind the place. -/
def bisectRight (starts : List ℕ) (index : ℕ) : ℕ := (starts.takeWhile (· ≤ index)).length

/-- The line and the column of a place, counted from one. -/
def locate (text : List Char) (index : ℕ) : ℕ × ℕ :=
  let line := bisectRight (lineStarts text) index - 1
  (line + 1, index - (lineStarts text).getD line 0 + 1)

/-- The span of the places from `start` up to `stop`. -/
def spanOf (text : List Char) (sourceId : String) (start stop : ℕ) : Span where
  sourceId := sourceId
  line := (locate text start).1
  column := (locate text start).2
  endLine := (locate text stop).1
  endColumn := (locate text stop).2

/-! ### The loop -/

section

variable (text : List Char) (sourceId : String) (limits : LexerLimits)

/-- The limit counts the bytes of the decoded token text in UTF-8. -/
def checkSize (start : ℕ) (raw : List Char) : Except Raised Unit :=
  if limits.maxTokenBytes < (raw.map Char.utf8Size).sum then
    .error (overflowError "token exceeds the request token-byte limit"
      (some (spanOf text sourceId start (start + raw.length))))
  else .ok ()

def emit (kind : TokenKind) (start : ℕ) (raw : List Char) (value : Option TokenValue) :
    Except Raised Token := do
  checkSize text sourceId limits start raw
  pure ⟨kind, String.ofList raw, value.getD (.text (String.ofList raw)),
    spanOf text sourceId start (start + raw.length)⟩

/-- The content of the string that starts at `index`, read from `stop` on, and the place of its
closing quote. -/
def scanString (index : ℕ) : ℕ → List Char → Except Raised (List Char × ℕ)
  | _, [] => .error (syntaxError "unterminated string"
      (some (spanOf text sourceId index text.length)))
  | stop, '"' :: _ => .ok ([], stop)
  | stop, ['\\'] => .error (syntaxError "unsupported string escape"
      (some (spanOf text sourceId stop (min (stop + 2) text.length))))
  | stop, '\\' :: escaped :: rest =>
    if escaped = '"' ∨ escaped = '\\' then do
      let (parts, last) ← scanString index (stop + 2) rest
      pure (escaped :: parts, last)
    else .error (syntaxError "unsupported string escape"
      (some (spanOf text sourceId stop (min (stop + 2) text.length))))
  | stop, c :: rest => do
    let (parts, last) ← scanString index (stop + 1) rest
    pure (c :: parts, last)

/-- The number `raw` at `index`, with `following` behind it. -/
def emitNumber (index : ℕ) (raw : List Char) (following : Option Char) : Except Raised Token := do
  let stop := index + raw.length
  if following.any isBoundary then
    .error (syntaxError "invalid numeric token" (some (spanOf text sourceId index (stop + 1))))
  else if isInteger raw then do
    checkSize text sourceId limits index raw
    let digits := (raw.dropWhile isSign).dropWhile (· = '0')
    if kMaxMantissaDigits < digits.length then
      .error (overflowError "numeric token exceeds exact-value bounds"
        (some (spanOf text sourceId index stop)))
    else do
      let units ← intOf (if digits = [] then ['0'] else digits)
      emit text sourceId limits .int index raw (some (.int (signOf raw * units)))
  else
    match parseDecimal raw with
    | .error (.lexerError error) =>
      .error (.lexerError { error with span := some (spanOf text sourceId index stop) })
    | .error .valueError => .error .valueError
    | .ok value => emit text sourceId limits .decimal index raw (some (.fraction value))

/-- One round of the loop at `index`, where `char :: rest` is left of the text: the token that was
read, if any, and the number of characters that the round takes. -/
def scan (index : ℕ) (char : Char) (rest : List Char) : Except Raised (Option Token × ℕ) :=
  let following := rest.head?
  let span := fun length => some (spanOf text sourceId index (index + length))
  if char ∈ whitespace then .ok (none, 1)
  else if char = '/' ∧ following = some '/' then
    .ok (none, ((char :: rest).takeWhile fun c => !isLineEnd c).length)
  else if char = '"' then do
    let (parts, last) ← scanString text sourceId index (index + 1) rest
    let length := last + 1 - index
    let token ← emit text sourceId limits .string index ((char :: rest).take length)
      (some (.text (String.ofList parts)))
    pure (some token, length)
  else if isSign char ∧ following.any isSign then .error (syntaxError "repeated sign" (span 2))
  else if char ∈ punctuation ∧
      ¬(isSign char ∧ (following.any Char.isDigit ∨ following = some '.')) then do
    let token ← emit text sourceId limits .punct index [char] none
    pure (some token, 1)
  else if isSign char ∨ char = '.' ∨ char.isDigit then
    match matchDecimal (char :: rest) with
    | none => .error (syntaxError "invalid numeric token" (span 1))
    | some raw => do
      let token ← emitNumber text sourceId limits index raw
        ((char :: rest).drop raw.length).head?
      pure (some token, raw.length)
  else
    match matchWord (char :: rest) with
    | none => .error (syntaxError "unexpected character" (span 1))
    | some raw => do
      let token ← emit text sourceId limits .word index raw none
      pure (some token, raw.length)

end

/-- The tokens of a decoded text. -/
def tokenize (text : List Char) (sourceId : String) (limits : LexerLimits) :
    Except Raised (List Token) :=
  (Lexing.run (scan text sourceId limits) 0 text).map (List.filterMap id)

end AccessoryController.VehicleProfiles
