import AccessoryController.Library.Numerals
import AccessoryController.Library.Utf8
import AccessoryController.VehicleCore.Contracts

/-!
# The capture parser

A capture is a text in one of two schemas: a header, and a row of columns for every received
frame. The parser takes the text line by line, and the columns of a row in the order of its
checks, and stops at the first thing that it cannot accept. The frame type is the core library's,
whose check of a frame against the classic CAN range is a parameter here.

## Main definitions

* `parseRow`: a row of the capture
* `parseLines`, `parseCsv`: the loop over the lines, and the parser
-/

namespace AccessoryController.Gvret

open VehicleCore

/-- The characters of a text. -/
abbrev Text := List UInt8

def ascii (text : String) : Text := Utf8.encode text.toList

def kLegacyHeader : Text := ascii "Time Stamp,ID,Extended,Bus,LEN,D1,D2,D3,D4,D5,D6,D7,D8"

def kSavvyCanV2Header : Text :=
  ascii "Time Stamp,ID,Extended,Dir,Bus,LEN,D1,D2,D3,D4,D5,D6,D7,D8"

def kPayloadColumns : ℕ := kCanClassicPayloadBytes

def comma : UInt8 := 44

def newline : UInt8 := 10

def carriageReturn : UInt8 := 13

/-- The direction of a frame, as the tool that captured it saw it. -/
inductive Direction
  | rx | tx | unknown
  deriving DecidableEq, Repr

/-- A row of a capture. The timestamp stands in the row and in its frame; the bus of the source
stands in the row alone. -/
structure ParsedGvretFrame where
  timestampUs : ℕ := 0
  bus : ℕ := 0
  frame : RawCanFrame := {}
  direction : Direction := .unknown

structure ParseError where
  lineNumber : ℕ
  reason : String
  deriving DecidableEq, Repr

inductive CsvSchema
  | v1 | v2
  deriving DecidableEq, Repr

/-- Where a schema has its columns. -/
structure CsvLayout where
  hasDirection : Bool
  directionColumn : ℕ
  busColumn : ℕ
  dlcColumn : ℕ
  firstPayloadColumn : ℕ

def kV1Layout : CsvLayout := ⟨false, 0, 3, 4, 5⟩

def kV2Layout : CsvLayout := ⟨true, 3, 4, 5, 6⟩

def layoutFor : CsvSchema → CsvLayout
  | .v1 => kV1Layout
  | .v2 => kV2Layout

/-! ### The columns of a row -/

def splitCsvLine (line : Text) : List Text :=
  match h : line.idxOf? comma with
  | none => [line]
  | some index => line.take index :: splitCsvLine (line.drop (index + 1))
termination_by line.length
decreasing_by
  have inside := (List.idxOf?_eq_some_iff.mp h).1
  rw [List.length_drop]
  omega

def withoutCarriageReturn (line : Text) : Text :=
  if line.getLast? = some carriageReturn then line.dropLast else line

/-- A number that fills its column. -/
def parseInteger (width base : ℕ) (text : Text) : Option ℕ :=
  if text = [] then none
  else
    match Numerals.fromChars width base text with
    | (.ok value, []) => some value
    | _ => none

def parseExtended (text : Text) : Option Bool :=
  if text = ascii "0" ∨ text = ascii "false" ∨ text = ascii "False" ∨ text = ascii "FALSE" then
    some false
  else if text = ascii "1" ∨ text = ascii "true" ∨ text = ascii "True" ∨ text = ascii "TRUE" then
    some true
  else none

def parseDirection (text : Text) : Option Direction :=
  if text = ascii "Rx" then some .rx else if text = ascii "Tx" then some .tx else none

/-- A byte of the payload, in one or two digits. -/
def parsePayloadByte (text : Text) : Option UInt8 :=
  if text = [] ∨ 2 < text.length then none
  else
    match parseInteger 32 16 text with
    | none => none
    | some byte => if 255 < byte then none else some (UInt8.ofNat byte)

/-- What a check of a column found, or the reason to refuse the row. -/
def required {T : Type} (found : Option T) (reason : String) : Except String T :=
  match found with
  | none => .error reason
  | some value => .ok value

/-- The direction of a row; a schema without the column has received frames. -/
def rowDirection (layout : CsvLayout) (text : Text) : Except String Direction :=
  if layout.hasDirection then
    required (parseDirection text) "invalid direction; expected Rx or Tx"
  else .ok .rx

/-- The body of the loop for a line behind the header. -/
def parseRow (isValid : RawCanFrame → Bool) (schema : CsvSchema) (line : Text) :
    Except String ParsedGvretFrame :=
  if line = [] then .error "empty CSV row"
  else do
    let fields := splitCsvLine line
    let layout := layoutFor schema
    let column := fun index => fields.getD index []
    if fields.length < layout.firstPayloadColumn then
      .error "row is missing required columns"
    else do
      let timestampUs ← required (parseInteger 64 10 (column 0)) "invalid timestamp"
      let identifier ← required (parseInteger 32 16 (column 1)) "invalid CAN identifier"
      let extended ← required (parseExtended (column 2)) "invalid Extended flag"
      let direction ← rowDirection layout (column layout.directionColumn)
      let bus ← required (parseInteger 32 10 (column layout.busColumn)) "invalid bus number"
      let dlc ← required
        ((parseInteger 32 10 (column layout.dlcColumn)).filter (· ≤ kPayloadColumns))
        "invalid DLC; expected a value from 0 to 8"
      -- one empty column may trail
      let fieldCount :=
        if layout.firstPayloadColumn < fields.length ∧ fields.getLast? = some [] then
          fields.length - 1
        else fields.length
      if layout.firstPayloadColumn + kPayloadColumns < fieldCount then
        .error "row contains unsupported columns"
      else if fieldCount < layout.firstPayloadColumn + dlc then
        .error "row is missing a required payload byte"
      else do
        let bytes ← (List.range dlc).mapM fun index =>
          required (parsePayloadByte (column (layout.firstPayloadColumn + index)))
            "invalid hexadecimal payload byte"
        let frame : RawCanFrame :=
          { timestampUs
            identifier
            identifierFormat := if extended then .extended else .standard
            dlc
            data := Vector.ofFn fun index => bytes.getD index 0 }
        if isValid frame then .ok { timestampUs, bus, frame, direction }
        else .error "CAN frame is outside the classic CAN range"

/-! ### The lines of a capture -/

/-- What the loop carries from line to line: the schema, once a header was seen, and the frames. -/
structure Progress where
  schema : Option CsvSchema := none
  frames : List ParsedGvretFrame := []

def parseLine (isValid : RawCanFrame → Bool) (progress : Progress) (line : Text) :
    Except String Progress :=
  match progress.schema with
  | none =>
    if line ≠ kLegacyHeader ∧ line ≠ kSavvyCanV2Header then .error "malformed GVRET header"
    else .ok { progress with schema := some (if line = kSavvyCanV2Header then .v2 else .v1) }
  | some schema => do
    let parsed ← parseRow isValid schema line
    .ok { progress with frames := progress.frames ++ [parsed] }

/-- The loop, from the line that `rest` begins with. -/
def parseLines (isValid : RawCanFrame → Bool) (progress : Progress) (lineNumber : ℕ)
    (rest : Text) : Except ParseError Progress :=
  -- a final newline does not begin an empty record
  if rest = [] then .ok progress
  else
    match h : rest.idxOf? newline with
    | none => (parseLine isValid progress (withoutCarriageReturn rest)).mapError (⟨lineNumber, ·⟩)
    | some index => do
      let progress ← (parseLine isValid progress
        (withoutCarriageReturn (rest.take index))).mapError (⟨lineNumber, ·⟩)
      parseLines isValid progress (lineNumber + 1) (rest.drop (index + 1))
termination_by rest.length
decreasing_by
  have inside := (List.idxOf?_eq_some_iff.mp h).1
  rw [List.length_drop]
  omega

/-- The parser. A result holds frames or an error, never both. -/
def parseCsv (isValid : RawCanFrame → Bool) (csv : Text) :
    Except ParseError (List ParsedGvretFrame) := do
  let progress ← parseLines isValid {} 1 csv
  match progress.schema with
  | none => .error ⟨1, "missing GVRET header"⟩
  | some _ => .ok progress.frames

end AccessoryController.Gvret
