import AccessoryController.Library.Json
import AccessoryController.Replay.PlaybackPacer

/-!
# Control messages

A browser controls a playback with small JSON objects. A minimal reader takes the members of such an
object from its text: escape-free strings and number tokens, which are kept as they stand in the
text. The parser makes a command of them, or rejects the text with a reason. The reader works on
what is left of the text, which is its position in the source.

## Main definitions

* `ControlReader.read`: the reader
* `PlaybackRate.fromToken`: the rate of a number token
* `parsePlaybackCommand`: the parser
-/

namespace AccessoryController.Replay

open Json (Bytes)

/-- The bytes of an ASCII literal. -/
def literal (text : String) : Bytes := text.toList.map fun c => UInt8.ofNat c.toNat

def kMaxControlMessageBytes : ℕ := 256

/-- The members of a control message, by their source texts. -/
structure ControlFields where
  type : Option Bytes := none
  command : Option Bytes := none
  rate : Option Bytes := none
  deriving DecidableEq, Repr

namespace ControlReader

/-! ### Characters -/

def isSpace (c : UInt8) : Bool := c == 32 || c == 9 || c == 10 || c == 13

def skipSpace (text : Bytes) : Bytes := text.dropWhile isSpace

def atEnd (text : Bytes) : Bool := (skipSpace text).isEmpty

/-- Takes a character if it is the expected one. -/
def accept (expected : UInt8) : Bytes → Bool × Bytes
  | [] => (false, [])
  | c :: rest => if c = expected then (true, rest) else (false, c :: rest)

/-- Takes an expected character after white space, which is skipped either way. -/
def consume (expected : UInt8) (text : Bytes) : Bool × Bytes := accept expected (skipSpace text)

/-- Takes digits, and tells whether there were any. -/
def digits (text : Bytes) : Bool × Bytes :=
  let rest := text.dropWhile Json.isDigit
  (rest.length ≠ text.length, rest)

/-! ### Strings and numbers -/

/-- The rest of a string after its opening quote. -/
def readBody : Bytes → Option (Bytes × Bytes)
  | [] => none
  | c :: rest =>
    if c = Json.quote then some ([], rest)
    else if c = Json.backslash ∨ c < 0x20 then none
    else (readBody rest).map fun (value, rest) => (c :: value, rest)

def readString (text : Bytes) : Option (Bytes × Bytes) :=
  let opening := consume Json.quote text
  if opening.1 then readBody opening.2 else none

/-- The whole part of a number, after its sign. -/
def readWhole (text : Bytes) : Bool × Bytes :=
  let zero := accept 48 text
  if zero.1 then zero else digits text

def readFraction (text : Bytes) : Bool × Bytes :=
  let point := accept 46 text
  if point.1 then digits point.2 else (true, text)

def readExponent (text : Bytes) : Bool × Bytes :=
  let lower := accept 101 text
  let mark := if lower.1 then lower else accept 69 text
  if mark.1 then
    let plus := accept 43 mark.2
    digits (if plus.1 then plus.2 else (accept 45 mark.2).2)
  else (true, text)

/-- The token of a number. -/
def readNumber (text : Bytes) : Option (Bytes × Bytes) :=
  let start := skipSpace text
  let whole := readWhole (accept 45 start).2
  if !whole.1 then none
  else
    let fraction := readFraction whole.2
    if !fraction.1 then none
    else
      let exponent := readExponent fraction.2
      if !exponent.1 then none
      else some (start.take (start.length - exponent.2.length), exponent.2)

/-! ### Members -/

/-- Reads the value of a member that was not read before. -/
def readOnce (field : Option Bytes) (value : Option (Bytes × Bytes))
    (store : Bytes → ControlFields) : Option (ControlFields × Bytes) :=
  if field.isSome then none else value.map fun (value, rest) => (store value, rest)

def readField (fields : ControlFields) (text : Bytes) : Option (ControlFields × Bytes) :=
  match readString text with
  | none => none
  | some (key, rest) =>
    let colon := consume Json.colon rest
    if !colon.1 then none
    else if key = literal "type" then
      readOnce fields.type (readString colon.2) fun value => { fields with type := some value }
    else if key = literal "command" then
      readOnce fields.command (readString colon.2) fun value =>
        { fields with command := some value }
    else if key = literal "rate" then
      readOnce fields.rate (readNumber colon.2) fun value => { fields with rate := some value }
    else none

/-- The members up to the first one that no comma follows. Each takes some of the text, so its
length bounds the rounds. -/
def readFields : ℕ → ControlFields → Bytes → Option (ControlFields × Bytes)
  | 0, _, _ => none
  | rounds + 1, fields, text =>
    match readField fields text with
    | none => none
    | some (fields, rest) =>
      let comma := consume Json.comma rest
      if comma.1 then readFields rounds fields comma.2 else some (fields, comma.2)

/-- **The reader** of a control message. -/
def read (text : Bytes) : Option ControlFields :=
  let opening := consume 123 text
  if !opening.1 then none
  else
    let closing := consume 125 opening.2
    if closing.1 then if atEnd closing.2 then some {} else none
    else
      match readFields text.length {} closing.2 with
      | none => none
      | some (fields, rest) =>
        let closing := consume 125 rest
        if closing.1 && atEnd closing.2 then some fields else none

end ControlReader

/-! ### Commands -/

def PlaybackRate.token : PlaybackRate → Bytes
  | .quarter => literal "0.25"
  | .half => literal "0.5"
  | .normal => literal "1"
  | .double => literal "2"
  | .quintuple => literal "5"

/-- The rates, in the order of their table. -/
def kRates : List PlaybackRate := [.quarter, .half, .normal, .double, .quintuple]

def PlaybackRate.fromToken (token : Bytes) : Option PlaybackRate :=
  kRates.find? fun rate => rate.token = token

/-- Either a command, or the reason of a rejection. -/
structure PlaybackCommandParse where
  command : Option PlaybackCommand := none
  rejection : String := ""
  deriving DecidableEq, Repr

def rejected (reason : String) : PlaybackCommandParse := { rejection := reason }

def simpleCommand (name : Bytes) : Option PlaybackCommand :=
  if name = literal "play" then some .play
  else if name = literal "pause" then some .pause
  else if name = literal "restart" then some .restart
  else none

def rateCommand (token : Option Bytes) : PlaybackCommandParse :=
  match token with
  | none => rejected "malformed"
  | some token =>
    match PlaybackRate.fromToken token with
    | none => rejected "unsupported_rate"
    | some rate => { command := some (.setRate rate) }

/-- **The parser** of a control message. -/
def parsePlaybackCommand (text : Bytes) : PlaybackCommandParse :=
  if kMaxControlMessageBytes < text.length then rejected "too_long"
  else
    match ControlReader.read text with
    | none => rejected "malformed"
    | some fields =>
      if fields.type ≠ some (literal "control") then rejected "unknown_type"
      else
        match fields.command with
        | none => rejected "unknown_command"
        | some command =>
          if command = literal "rate" then rateCommand fields.rate
          else
            match simpleCommand command with
            | none => rejected "unknown_command"
            | some command =>
              if fields.rate.isSome then rejected "malformed" else { command := some command }

-- white space between the tokens, and the members in any order
example : parsePlaybackCommand (literal " \x7b\"rate\" : 0.5,\n\"command\":\"rate\", \"type\":\"control\"\x7d ") =
    { command := some (.setRate .half) } := by
  decide +kernel

end AccessoryController.Replay
