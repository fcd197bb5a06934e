import AccessoryController.Gvret.CsvParser
import AccessoryController.Library.Records

/-!
# The law of the capture parser

A text is a capture when its lines, less the carriage return that may end each, are a header and
rows of its schema. The parser accepts the captures, with a frame for each row, reads back what is
printed, and names the first line of any other text that is out of place.

## Main definitions

* `Columns`: the columns of a row
* `Columns.Describe`: the columns describe the frame
* `IsRow`: the text is a row for the frame
* `Printable`, `printRow`: the frames that a schema can carry, and their rows
* `Line`: a line with the carriage return that may end it
* `IsCapture`: the text is a capture of the frames
* `printCsv`: the text of a list of frames
* `Fits`: the line is what a capture has in its place

## Main results

* `parseRow_eq_ok_iff`: the parser accepts the rows
* `isRow_printRow`: printing
* `parseCsv_eq`: the loop reads the pieces of the text
* `parse_captures`: the law of the parser
-/

namespace AccessoryController.Gvret

open Numerals VehicleCore

/-! ### The rows of a capture

What a row of either schema says, as a relation between its columns and the frame that they
describe. The parser accepts exactly the rows that describe a frame, and every frame that a schema
can carry has a row. -/

/-- The limits of a classic frame. -/
def InClassicRange (frame : RawCanFrame) : Prop :=
  frame.dlc ≤ kCanClassicPayloadBytes ∧
    match frame.identifierFormat with
    | .standard => frame.identifier ≤ 0x7FF
    | .extended => frame.identifier ≤ 0x1FFFFFFF

instance (frame : RawCanFrame) : Decidable (InClassicRange frame) :=
  match h : frame.identifierFormat with
  | .standard => decidable_of_iff (frame.dlc ≤ kCanClassicPayloadBytes ∧ frame.identifier ≤ 0x7FF)
      (by simp only [InClassicRange, h])
  | .extended =>
    decidable_of_iff (frame.dlc ≤ kCanClassicPayloadBytes ∧ frame.identifier ≤ 0x1FFFFFFF)
      (by simp only [InClassicRange, h])

/-- The columns of a row. The first schema has none for the direction. -/
structure Columns where
  timestamp : Text
  identifier : Text
  extended : Text
  direction : Text := []
  bus : Text
  length : Text
  payload : List Text

/-- The columns in the order of a schema. -/
def Columns.texts (c : Columns) : CsvSchema → List Text
  | .v1 => c.timestamp :: c.identifier :: c.extended :: c.bus :: c.length :: c.payload
  | .v2 => c.timestamp :: c.identifier :: c.extended :: c.direction :: c.bus :: c.length ::
      c.payload

/-- The payload columns, not counting one empty trailing column. -/
def Columns.counted (c : Columns) : ℕ :=
  if c.payload.getLast? = some [] then c.payload.length - 1 else c.payload.length

def extendedSpellings : CanIdentifierFormat → List Text
  | .standard => [ascii "0", ascii "false", ascii "False", ascii "FALSE"]
  | .extended => [ascii "1", ascii "true", ascii "True", ascii "TRUE"]

/-- The direction that a schema records; the first schema has received frames only. -/
def Directed (schema : CsvSchema) (text : Text) (direction : Direction) : Prop :=
  match schema with
  | .v1 => direction = .rx
  | .v2 => text = ascii "Rx" ∧ direction = .rx ∨ text = ascii "Tx" ∧ direction = .tx

/-- A payload byte in one or two hexadecimal digits. -/
def IsPayloadByte (text : Text) (byte : UInt8) : Prop :=
  IsNumeral 16 text byte.toNat ∧ text.length ≤ 2

/-- The columns describe the frame. -/
structure Columns.Describe (c : Columns) (schema : CsvSchema) (parsed : ParsedGvretFrame) :
    Prop where
  timestamp : IsNumeral 10 c.timestamp parsed.timestampUs ∧ parsed.timestampUs < 2 ^ 64
  identifier : IsNumeral 16 c.identifier parsed.frame.identifier
  extended : c.extended ∈ extendedSpellings parsed.frame.identifierFormat
  direction : Directed schema c.direction parsed.direction
  bus : IsNumeral 10 c.bus parsed.bus ∧ parsed.bus < 2 ^ 32
  length : IsNumeral 10 c.length parsed.frame.dlc
  enough : parsed.frame.dlc ≤ c.payload.length
  room : c.counted ≤ kPayloadColumns
  bytes : ∀ i : Fin kCanClassicPayloadBytes, i < parsed.frame.dlc →
    IsPayloadByte (c.payload.getD i []) parsed.frame.data[i]
  zero : ∀ i : Fin kCanClassicPayloadBytes, parsed.frame.dlc ≤ i → parsed.frame.data[i] = 0
  sameTime : parsed.frame.timestampUs = parsed.timestampUs
  neutralBus : parsed.frame.busId = 0
  dataFrame : parsed.frame.remoteRequest = false
  classic : InClassicRange parsed.frame

/-- The text is a row for the frame. -/
def IsRow (schema : CsvSchema) (row : Text) (parsed : ParsedGvretFrame) : Prop :=
  ∃ c : Columns, row.splitOn comma = c.texts schema ∧ c.Describe schema parsed

/-! ### Single columns -/

theorem splitCsvLine_eq (line : Text) : splitCsvLine line = line.splitOn comma := by
  fun_induction splitCsvLine line with
  | case1 line absent => exact (Records.splitOn_of_none absent).symm
  | case2 line index first ih => rw [ih, Records.splitOn_of_some first]

theorem parseInteger_eq_some {width base : ℕ} {text : Text} {n : ℕ} :
    parseInteger width base text = some n ↔ IsNumeral base text n ∧ n < 2 ^ width := by
  rw [← fromChars_eq_ok_iff]
  unfold parseInteger
  split
  next empty =>
    refine ⟨nofun, fun converted => ?_⟩
    exact absurd empty (fromChars_eq_ok_iff.mp converted).1.ne_nil
  next => split <;> simp_all

theorem parseExtended_eq_some {text : Text} {extended : Bool} :
    parseExtended text = some extended ↔
      text ∈ extendedSpellings (if extended then .extended else .standard) := by
  constructor
  · intro found
    unfold parseExtended at found
    split at found
    next standard =>
      obtain rfl := Option.some.inj found
      simpa [extendedSpellings] using standard
    next =>
      split at found
      next long =>
        obtain rfl := Option.some.inj found
        simpa [extendedSpellings] using long
      next => cases found
  · cases extended with
    | false =>
      intro standard
      exact if_pos (by simpa [extendedSpellings] using standard)
    | true =>
      have all : ∀ t ∈ extendedSpellings .extended, parseExtended t = some true := by decide
      exact all text

theorem parsePayloadByte_eq_some {text : Text} {byte : UInt8} :
    parsePayloadByte text = some byte ↔ IsPayloadByte text byte := by
  have small := byte.toNat_lt
  unfold parsePayloadByte
  constructor
  · intro found
    split at found
    · cases found
    next sized =>
      cases hvalue : parseInteger 32 16 text with
      | none =>
        rw [hvalue] at found
        cases found
      | some value =>
        rw [hvalue] at found
        dsimp only at found
        split at found
        · cases found
        next fits =>
          obtain rfl := Option.some.inj found
          have number : (UInt8.ofNat value).toNat = value := by
            rw [UInt8.toNat_ofNat']
            omega
          rw [IsPayloadByte, number]
          exact ⟨(parseInteger_eq_some.mp hvalue).1, by omega⟩
  · rintro ⟨numeral, short⟩
    have parsed := parseInteger_eq_some.mpr
      (show _ ∧ byte.toNat < 2 ^ 32 from ⟨numeral, by omega⟩)
    rw [if_neg (not_or.mpr ⟨numeral.ne_nil, Nat.not_lt.mpr short⟩), parsed]
    dsimp only
    rw [if_neg (by omega), UInt8.ofNat_toNat]

/-! ### The columns in their places -/

section Places

variable (c : Columns) (schema : CsvSchema)

theorem Columns.length_texts :
    (c.texts schema).length = (layoutFor schema).firstPayloadColumn + c.payload.length := by
  cases schema <;> simp only [texts, layoutFor, kV1Layout, kV2Layout, List.length_cons] <;> omega

theorem Columns.getLast?_texts : ((layoutFor schema).firstPayloadColumn < (c.texts schema).length ∧
    (c.texts schema).getLast? = some []) ↔ c.payload.getLast? = some [] := by
  rw [c.length_texts]
  cases hpayload : c.payload with
  | nil => simp
  | cons first rest => cases schema <;> simp [texts, hpayload]

theorem Columns.counted_le : c.counted ≤ c.payload.length := by
  unfold Columns.counted
  split <;> omega

/-- The payload columns of the source's count. -/
theorem Columns.counted_eq :
    (if (layoutFor schema).firstPayloadColumn < (c.texts schema).length ∧
        (c.texts schema).getLast? = some [] then (c.texts schema).length - 1
      else (c.texts schema).length) = (layoutFor schema).firstPayloadColumn + c.counted := by
  rw [if_congr (c.getLast?_texts schema) rfl rfl, c.length_texts, counted]
  split
  next last =>
    cases hpayload : c.payload with
    | nil =>
      rw [hpayload] at last
      cases last
    | cons first rest => rfl
  next => rfl

theorem Columns.getD_payload (index : ℕ) :
    (c.texts schema).getD ((layoutFor schema).firstPayloadColumn + index) [] =
      c.payload.getD index [] := by
  rw [Nat.add_comm]
  cases schema <;> rfl

/-- A row is not empty. -/
theorem Columns.ne_nil {row : Text}
    (columns : row.splitOn comma = c.texts schema) : row ≠ [] := by
  rintro rfl
  have length := congrArg List.length columns
  rw [c.length_texts, List.splitOn_nil] at length
  cases schema <;> simp only [layoutFor, kV1Layout, kV2Layout, List.length_singleton] at length
    <;> omega

/-- Enough columns for a schema are the columns of a row. -/
theorem exists_texts {fields : List Text}
    (enough : (layoutFor schema).firstPayloadColumn ≤ fields.length) :
    ∃ c : Columns, fields = c.texts schema := by
  cases schema with
  | v1 =>
    match fields, enough with
    | timestamp :: identifier :: extended :: bus :: length :: payload, _ =>
      exact ⟨{ timestamp, identifier, extended, bus, length, payload }, rfl⟩
  | v2 =>
    match fields, enough with
    | timestamp :: identifier :: extended :: direction :: bus :: length :: payload, _ =>
      exact ⟨{ timestamp, identifier, extended, direction, bus, length, payload }, rfl⟩

end Places

variable {schema : CsvSchema} {c : Columns} {reason : String} {frames : List ParsedGvretFrame}

/-- No column of the payload that the length asks for is an empty trailing column. -/
theorem Columns.Describe.enough_counted {parsed : ParsedGvretFrame} (d : c.Describe schema parsed) :
    parsed.frame.dlc ≤ c.counted := by
  have enough := d.enough
  unfold Columns.counted
  split
  next last =>
    rcases Nat.lt_or_ge parsed.frame.dlc c.payload.length with fewer | all
    · omega
    · -- the last byte would be the empty column, which has no digits
      exfalso
      have some_column : 0 < c.payload.length := by
        cases hpayload : c.payload with
        | nil =>
          rw [hpayload] at last
          cases last
        | cons first rest => exact Nat.succ_pos _
      have small := d.classic.1
      have byte := d.bytes ⟨c.payload.length - 1, by omega⟩ (show c.payload.length - 1 < _ by omega)
      rw [List.getLast?_eq_getElem?] at last
      refine byte.1.ne_nil ?_
      show c.payload.getD (c.payload.length - 1) [] = []
      rw [List.getD_eq_getElem?_getD, last]
      rfl
  next => exact enough

/-- The frame that the parser builds of the values in the columns. -/
theorem Columns.Describe.frame_eq {parsed : ParsedGvretFrame} (d : c.Describe schema parsed) :
    ({ timestampUs := parsed.timestampUs
       identifier := parsed.frame.identifier
       identifierFormat :=
        if decide (parsed.frame.identifierFormat = .extended) then .extended else .standard
       dlc := parsed.frame.dlc
       data := Vector.ofFn fun index =>
        (parsed.frame.data.toList.take parsed.frame.dlc).getD index 0 } : RawCanFrame) =
      parsed.frame := by
  have data : (Vector.ofFn fun index : Fin kCanClassicPayloadBytes =>
      (parsed.frame.data.toList.take parsed.frame.dlc).getD index 0) = parsed.frame.data := by
    refine Vector.ext fun i hi => ?_
    rw [Vector.getElem_ofFn]
    rcases Nat.lt_or_ge i parsed.frame.dlc with inside | outside
    · rw [List.getD_eq_getElem?_getD, List.getElem?_take_of_lt inside,
        List.getElem?_eq_getElem (by rwa [Vector.length_toList]), Vector.getElem_toList]
      rfl
    · have taken := List.length_take_le parsed.frame.dlc parsed.frame.data.toList
      rw [List.getD_eq_default _ _ (taken.trans outside)]
      exact (d.zero ⟨i, hi⟩ outside).symm
  have sameTime := d.sameTime
  have neutralBus := d.neutralBus
  have dataFrame := d.dataFrame
  rw [data]
  cases hframe : parsed.frame with
  | mk timestampUs identifier identifierFormat remoteRequest busId dlc data =>
    rw [hframe] at sameTime neutralBus dataFrame
    subst sameTime neutralBus dataFrame
    cases identifierFormat <;> rfl

/-! ### Parsing a row -/

theorem required_eq_ok {T : Type} {found : Option T} {value : T} :
    required found reason = .ok value ↔ found = some value := by
  cases found with
  | none => exact ⟨nofun, nofun⟩
  | some found =>
    exact ⟨fun h => congrArg some (Except.ok.inj h),
      fun h => congrArg Except.ok (Option.some.inj h)⟩

theorem refused_eq_ok {T : Type} {p : Prop} [Decidable p] {x : Except String T} {value : T} :
    (if p then .error reason else x) = .ok value ↔ ¬p ∧ x = .ok value := by
  split <;> simp_all

theorem accepted_eq_ok {T : Type} {p : Prop} [Decidable p] {value parsed : T} :
    (if p then .ok parsed else .error reason) = (.ok value : Except String T) ↔
      p ∧ parsed = value := by
  split <;> simp_all

/-- What the check of the direction finds. -/
theorem rowDirection_eq_ok {direction : Direction} :
    rowDirection (layoutFor schema) ((c.texts schema).getD (layoutFor schema).directionColumn []) =
      .ok direction ↔ Directed schema c.direction direction := by
  cases schema with
  | v1 =>
    show (Except.ok Direction.rx = Except.ok direction) ↔ direction = .rx
    exact ⟨fun h => (Except.ok.inj h).symm, fun h => congrArg _ h.symm⟩
  | v2 =>
    show required (parseDirection c.direction) _ = .ok direction ↔ _
    rw [required_eq_ok, parseDirection, Directed]
    have different : ascii "Tx" ≠ ascii "Rx" := by decide
    split
    next received =>
      rw [received]
      simp [different.symm, eq_comm]
    next =>
      split
      next sent =>
        rw [sent]
        simp [different, eq_comm]
      next => simp_all

/-- The payload that was parsed. -/
theorem payload_eq_ok {dlc : ℕ} {bytes : List UInt8} :
    ((List.range dlc).mapM fun index => required (parsePayloadByte ((c.texts schema).getD
      ((layoutFor schema).firstPayloadColumn + index) [])) reason) = .ok bytes ↔
      bytes.length = dlc ∧ ∀ i < dlc, IsPayloadByte (c.payload.getD i []) (bytes.getD i 0) := by
  simp only [Columns.getD_payload]
  rw [Outcome.mapM_eq_ok, List.forall₂_iff_get]
  simp only [required_eq_ok, parsePayloadByte_eq_some, List.get_eq_getElem, List.getElem_range,
    List.length_range]
  constructor
  · rintro ⟨rfl, each⟩
    refine ⟨rfl, fun i hi => ?_⟩
    rw [List.getD_eq_getElem _ _ hi]
    exact each i hi hi
  · rintro ⟨rfl, each⟩
    refine ⟨rfl, fun i hi _ => ?_⟩
    have byte := each i hi
    rwa [List.getD_eq_getElem _ _ hi] at byte

variable {isValid : RawCanFrame → Bool} {schema : CsvSchema} {row : Text}
  {parsed : ParsedGvretFrame}

/-- A row of which the columns are known. -/
theorem parseRow_eq_ok_iff_describe (classic : ∀ frame, isValid frame = true ↔ InClassicRange frame)
    (columns : row.splitOn comma = c.texts schema) :
    parseRow isValid schema row = .ok parsed ↔ c.Describe schema parsed := by
  have timestamp : (c.texts schema).getD 0 [] = c.timestamp := by cases schema <;> rfl
  have identifier : (c.texts schema).getD 1 [] = c.identifier := by cases schema <;> rfl
  have extended : (c.texts schema).getD 2 [] = c.extended := by cases schema <;> rfl
  have bus : (c.texts schema).getD (layoutFor schema).busColumn [] = c.bus := by
    cases schema <;> rfl
  have length : (c.texts schema).getD (layoutFor schema).dlcColumn [] = c.length := by
    cases schema <;> rfl
  unfold parseRow
  rw [if_neg (c.ne_nil schema columns)]
  simp only [splitCsvLine_eq, columns, c.counted_eq, timestamp, identifier, extended, bus, length]
  rw [if_neg (by rw [c.length_texts]; omega)]
  simp only [Outcome.bind_eq_ok, required_eq_ok, refused_eq_ok, accepted_eq_ok, rowDirection_eq_ok,
    payload_eq_ok, parseInteger_eq_some, parseExtended_eq_some, Option.filter_eq_some_iff]
  constructor
  · rintro ⟨timestampUs, htime, identifier, hid, extended, hext, direction, hdir, bus, hbus, dlc,
      ⟨hdlc, hsmall⟩, room, enough, bytes, ⟨rfl, hbytes⟩, valid, rfl⟩
    have small : bytes.length ≤ kPayloadColumns := of_decide_eq_true hsmall
    have inside : bytes.length ≤ c.counted := by omega
    refine ⟨htime, hid.1, ?_, hdir, hbus, hdlc.1, inside.trans c.counted_le, by omega, ?_, ?_,
      rfl, rfl, rfl, (classic _).mp valid⟩
    · cases extended <;> exact hext
    · intro i inside
      simpa [Vector.getElem_ofFn] using hbytes i inside
    · intro i outside
      have beyond : bytes[(i : ℕ)]? = none := List.getElem?_eq_none outside
      simp [Vector.getElem_ofFn, beyond]
  · intro d
    have identifier : parsed.frame.identifier < 2 ^ 32 := by
      have limits := d.classic.2
      cases hformat : parsed.frame.identifierFormat <;> rw [hformat] at limits <;>
        dsimp only at limits <;> omega
    have dlc : parsed.frame.dlc ≤ kPayloadColumns := d.classic.1
    have data : parsed.frame.data.toList.length = 8 := Vector.length_toList
    have eight : kPayloadColumns = 8 := rfl
    refine ⟨parsed.timestampUs, d.timestamp, parsed.frame.identifier, ⟨d.identifier, identifier⟩,
      decide (parsed.frame.identifierFormat = .extended), ?_, parsed.direction, d.direction,
      parsed.bus, d.bus, parsed.frame.dlc, ⟨⟨d.length, by omega⟩, decide_eq_true dlc⟩,
      Nat.not_lt.mpr (Nat.add_le_add_left d.room _),
      Nat.not_lt.mpr (Nat.add_le_add_left d.enough_counted _),
      parsed.frame.data.toList.take parsed.frame.dlc, ⟨?_, ?_⟩, ?_⟩
    · cases hformat : parsed.frame.identifierFormat <;> simpa [hformat] using d.extended
    · rw [List.length_take]
      omega
    · intro i inside
      have byte := d.bytes ⟨i, show i < 8 by omega⟩ inside
      have taken : (parsed.frame.data.toList.take parsed.frame.dlc).getD i 0 =
          parsed.frame.data[(⟨i, show i < 8 by omega⟩ : Fin kCanClassicPayloadBytes)] := by
        rw [List.getD_eq_getElem _ _ (by rw [List.length_take]; omega), List.getElem_take]
        exact Vector.getElem_toList _
      rw [taken]
      exact byte
    · rw [d.frame_eq]
      exact ⟨(classic _).mpr d.classic, rfl⟩

/-- **The parser accepts exactly the rows**, with the frames that they describe. -/
theorem parseRow_eq_ok_iff (classic : ∀ frame, isValid frame = true ↔ InClassicRange frame) :
    parseRow isValid schema row = .ok parsed ↔ IsRow schema row parsed := by
  constructor
  · intro accepted
    have enough : (layoutFor schema).firstPayloadColumn ≤ (row.splitOn comma).length := by
      by_contra few
      unfold parseRow at accepted
      split at accepted
      · cases accepted
      · dsimp only at accepted
        rw [splitCsvLine_eq, if_pos (Nat.lt_of_not_le few)] at accepted
        cases accepted
    obtain ⟨c, columns⟩ := exists_texts schema enough
    exact ⟨c, columns, (parseRow_eq_ok_iff_describe classic columns).mp accepted⟩
  · rintro ⟨c, columns, describe⟩
    exact (parseRow_eq_ok_iff_describe classic columns).mpr describe

/-! ### Printing a row -/

/-- The frames that a schema can carry: the first has no column for the direction. -/
structure Printable (schema : CsvSchema) (parsed : ParsedGvretFrame) : Prop where
  timestamp : parsed.timestampUs < 2 ^ 64
  bus : parsed.bus < 2 ^ 32
  direction : match schema with
    | .v1 => parsed.direction = .rx
    | .v2 => parsed.direction ≠ .unknown
  zero : ∀ i : Fin kCanClassicPayloadBytes, parsed.frame.dlc ≤ i → parsed.frame.data[i] = 0
  sameTime : parsed.frame.timestampUs = parsed.timestampUs
  neutralBus : parsed.frame.busId = 0
  dataFrame : parsed.frame.remoteRequest = false
  classic : InClassicRange parsed.frame

def printByte (byte : UInt8) : Text := [digitChar (byte.toNat / 16), digitChar (byte.toNat % 16)]

/-- The columns that a frame is printed in. -/
def columnsOf (parsed : ParsedGvretFrame) : Columns where
  timestamp := print 10 parsed.timestampUs
  identifier := print 16 parsed.frame.identifier
  extended := match parsed.frame.identifierFormat with
    | .standard => ascii "false"
    | .extended => ascii "true"
  direction := match parsed.direction with
    | .rx => ascii "Rx"
    | .tx => ascii "Tx"
    | .unknown => []
  bus := print 10 parsed.bus
  length := print 10 parsed.frame.dlc
  payload := (parsed.frame.data.toList.take parsed.frame.dlc).map printByte

def printRow (schema : CsvSchema) (parsed : ParsedGvretFrame) : Text :=
  [comma].intercalate ((columnsOf parsed).texts schema)

theorem isPayloadByte_printByte (byte : UInt8) : IsPayloadByte (printByte byte) byte := by
  have small := byte.toNat_lt
  refine ⟨?_, Nat.le_refl 2⟩
  have digits : ∀ d ∈ [byte.toNat / 16, byte.toNat % 16], d < 16 := by
    intro d hd
    rcases List.mem_pair.mp hd with rfl | rfl <;> omega
  have numeral := isNumeral_map (by omega) digits (List.cons_ne_nil _ _)
  have number : value 16 [byte.toNat / 16, byte.toNat % 16] = byte.toNat := by
    show (0 * 16 + byte.toNat / 16) * 16 + byte.toNat % 16 = byte.toNat
    omega
  rwa [number] at numeral

/-- A printed frame is described by its columns. -/
theorem describe_columnsOf (p : Printable schema parsed) :
    (columnsOf parsed).Describe schema parsed := by
  have dlc : parsed.frame.dlc ≤ kCanClassicPayloadBytes := p.classic.1
  have count : (columnsOf parsed).payload.length = parsed.frame.dlc := by
    show ((parsed.frame.data.toList.take parsed.frame.dlc).map printByte).length = _
    rw [List.length_map, List.length_take, Vector.length_toList]
    omega
  exact
    { timestamp := ⟨isNumeral_print (by omega) (by omega) _, p.timestamp⟩
      identifier := isNumeral_print (by omega) (by omega) _
      extended := by
        show (match parsed.frame.identifierFormat with
          | .standard => ascii "false"
          | .extended => ascii "true") ∈ _
        cases parsed.frame.identifierFormat <;> simp [extendedSpellings]
      direction := by
        have direction := p.direction
        show Directed schema (match parsed.direction with
          | .rx => ascii "Rx"
          | .tx => ascii "Tx"
          | .unknown => []) _
        cases schema with
        | v1 => exact direction
        | v2 => cases hdirection : parsed.direction <;> simp_all [Directed]
      bus := ⟨isNumeral_print (by omega) (by omega) _, p.bus⟩
      length := isNumeral_print (by omega) (by omega) _
      enough := count.ge
      room := (columnsOf parsed).counted_le.trans (count.trans_le dlc)
      bytes := fun i inside => by
        have there : (i : ℕ) < (columnsOf parsed).payload.length := by omega
        have printed : (columnsOf parsed).payload.getD i [] = printByte parsed.frame.data[i] := by
          rw [List.getD_eq_getElem _ _ there]
          simp [columnsOf]
        rw [printed]
        exact isPayloadByte_printByte _
      zero := p.zero
      sameTime := p.sameTime
      neutralBus := p.neutralBus
      dataFrame := p.dataFrame
      classic := p.classic }

/-! Nothing but digits and letters is printed in a column, so that the columns and the lines stay
apart. -/

/-- A digit or a letter. -/
def Alphanumeric (c : UInt8) : Prop := place c < 36

instance (c : UInt8) : Decidable (Alphanumeric c) := inferInstanceAs (Decidable (_ < _))

theorem place_lt_of_isSome {base : ℕ} {c : UInt8} (digit : (digit? base c).isSome) :
    place c < base := by
  unfold digit? at digit
  split at digit
  next small => exact small
  next => cases digit

theorem alphanumeric_of_isNumeral {base : ℕ} (letters : base ≤ 36) {text : Text} {n : ℕ}
    (numeral : IsNumeral base text n) : ∀ c ∈ text, Alphanumeric c :=
  fun _ hc => (place_lt_of_isSome (numeral.isSome hc)).trans_le letters

theorem alphanumeric_of_all {text : Text} (all : (text.all fun c => place c < 36) = true) :
    ∀ c ∈ text, Alphanumeric c :=
  fun c hc => of_decide_eq_true (List.all_eq_true.mp all c hc)

theorem alphanumeric_texts (schema : CsvSchema) (parsed : ParsedGvretFrame) :
    ∀ text ∈ (columnsOf parsed).texts schema, ∀ c ∈ text, Alphanumeric c := by
  have decimal : ∀ n, ∀ c ∈ print 10 n, Alphanumeric c := fun n =>
    alphanumeric_of_isNumeral (by omega) (isNumeral_print (by omega) (by omega) n)
  have identifier : ∀ c ∈ (columnsOf parsed).identifier, Alphanumeric c :=
    alphanumeric_of_isNumeral (by omega) (isNumeral_print (by omega) (by omega) _)
  have extended : ∀ c ∈ (columnsOf parsed).extended, Alphanumeric c := by
    show ∀ c ∈ (match parsed.frame.identifierFormat with
      | .standard => ascii "false"
      | .extended => ascii "true"), _
    cases parsed.frame.identifierFormat <;> exact alphanumeric_of_all (by decide)
  have direction : ∀ c ∈ (columnsOf parsed).direction, Alphanumeric c := by
    show ∀ c ∈ (match parsed.direction with
      | .rx => ascii "Rx"
      | .tx => ascii "Tx"
      | .unknown => []), _
    cases parsed.direction <;> exact alphanumeric_of_all (by decide)
  have payload : ∀ text ∈ (columnsOf parsed).payload, ∀ c ∈ text, Alphanumeric c := by
    intro text htext
    obtain ⟨byte, -, rfl⟩ := List.mem_map.mp htext
    exact alphanumeric_of_isNumeral (by omega) (isPayloadByte_printByte byte).1
  cases schema with
  | v1 =>
    simp only [Columns.texts, List.forall_mem_cons]
    exact ⟨decimal _, identifier, extended, decimal _, decimal _, payload⟩
  | v2 =>
    simp only [Columns.texts, List.forall_mem_cons]
    exact ⟨decimal _, identifier, extended, direction, decimal _, decimal _, payload⟩

/-- **Every frame that a schema can carry has a row.** -/
theorem isRow_printRow (p : Printable schema parsed) :
    IsRow schema (printRow schema parsed) parsed := by
  refine ⟨columnsOf parsed, ?_, describe_columnsOf p⟩
  have some_column : (columnsOf parsed).texts schema ≠ [] := by
    cases schema <;> exact List.cons_ne_nil _ _
  refine List.splitOn_intercalate comma (fun text htext hcomma => ?_) some_column
  exact absurd (alphanumeric_texts schema parsed text htext comma hcomma) (by decide)

theorem mem_printRow {c : UInt8} (hc : c ∈ printRow schema parsed) :
    Alphanumeric c ∨ c = comma := by
  have all := alphanumeric_texts schema parsed
  unfold printRow at hc
  generalize (columnsOf parsed).texts schema = texts at hc all
  induction texts with
  | nil => cases hc
  | cons text texts ih =>
    obtain ⟨first, others⟩ := List.forall_mem_cons.mp all
    cases texts with
    | nil =>
      rw [List.intercalate_singleton] at hc
      exact Or.inl (first c hc)
    | cons next texts =>
      rw [List.intercalate_cons_cons, List.mem_append, List.mem_append] at hc
      rcases hc with (hc | hc) | hc
      · exact Or.inl (first c hc)
      · exact Or.inr (List.mem_singleton.mp hc)
      · exact ih hc others

open Records

def headerOf : CsvSchema → Text
  | .v1 => kLegacyHeader
  | .v2 => kSavvyCanV2Header

/-- The schema that a header announces. -/
def schemaOf? (line : Text) : Option CsvSchema :=
  if line = kSavvyCanV2Header then some .v2
  else if line = kLegacyHeader then some .v1
  else none

theorem headers_differ : kLegacyHeader ≠ kSavvyCanV2Header := by decide

theorem schemaOf?_eq_some {line : Text} :
    schemaOf? line = some schema ↔ line = headerOf schema := by
  unfold schemaOf?
  cases schema <;> split_ifs <;> simp_all [headerOf, headers_differ, headers_differ.symm]

theorem headerOf_injective {schema' : CsvSchema} (same : headerOf schema = headerOf schema') :
    schema = schema' :=
  Option.some.inj ((schemaOf?_eq_some.mpr rfl).symm.trans (schemaOf?_eq_some.mpr same))

/-! ### The loop over the pieces of a text -/

section Loop

variable (isValid : RawCanFrame → Bool)

/-- The rows of a text, from a line number on. -/
def readRows (schema : CsvSchema) (lineNumber : ℕ) (lines : List Text) :
    Except ParseError (List ParsedGvretFrame) :=
  readAll (fun line => parseRow isValid schema (withoutCarriageReturn line)) ParseError.mk
    lineNumber lines

theorem parseLine_row (schema : CsvSchema) (frames : List ParsedGvretFrame) (line : Text) :
    parseLine isValid ⟨some schema, frames⟩ line =
      (parseRow isValid schema line).map fun parsed => ⟨some schema, frames ++ [parsed]⟩ := by
  cases hrow : parseRow isValid schema line <;> simp [parseLine, hrow] <;> rfl

/-- Behind the header, the loop reads the rows. -/
theorem parseLines_rows (rest : Text) (frames : List ParsedGvretFrame) (lineNumber : ℕ) :
    parseLines isValid ⟨some schema, frames⟩ lineNumber rest =
      (readRows isValid schema lineNumber (pieces newline rest)).map
        fun more => ⟨some schema, frames ++ more⟩ := by
  induction h : rest.length using Nat.strongRecOn generalizing rest frames lineNumber with
  | ind n ih =>
    rw [parseLines]
    by_cases empty : rest = []
    · rw [if_pos empty, empty, pieces_nil]
      show _ = Except.ok (Progress.mk (some schema) (frames ++ []))
      rw [List.append_nil]
    rw [if_neg empty]
    split
    next absent =>
      rw [pieces_of_none absent empty, parseLine_row, readRows, readAll, readAll]
      cases parseRow isValid schema (withoutCarriageReturn rest) <;> rfl
    next index first =>
      have shorter : (rest.drop (index + 1)).length < n := by
        have inside := (List.idxOf?_eq_some_iff.mp first).1
        rw [List.length_drop]
        omega
      rw [pieces_of_some first, parseLine_row, readRows, readAll]
      cases parseRow isValid schema (withoutCarriageReturn (rest.take index)) with
      | error reason => rfl
      | ok parsed =>
        show parseLines isValid ⟨some schema, frames ++ [parsed]⟩ _ _ = _
        rw [ih _ shorter _ _ _ rfl, readRows]
        show _ = Except.map _ (readAll _ _ _ _ >>= fun values => pure (parsed :: values))
        cases readAll _ ParseError.mk (lineNumber + 1) (pieces newline (rest.drop (index + 1))) with
        | error error => rfl
        | ok values =>
          show Except.ok (Progress.mk (some schema) (frames ++ [parsed] ++ values)) =
            Except.ok (Progress.mk (some schema) (frames ++ parsed :: values))
          rw [List.append_assoc, List.singleton_append]

/-- The header of a text. -/
theorem parseLine_header (line : Text) : parseLine isValid {} line =
    match schemaOf? line with
    | none => .error "malformed GVRET header"
    | some schema => .ok ⟨some schema, []⟩ := by
  unfold parseLine schemaOf?
  by_cases v2 : line = kSavvyCanV2Header
  · simp [v2]
  · by_cases v1 : line = kLegacyHeader <;> simp [v1, v2, headers_differ]

/-- **The parser reads the pieces of its text**: a header, and the rows of its schema. -/
theorem parseCsv_eq (csv : Text) : parseCsv isValid csv =
    match pieces newline csv with
    | [] => .error ⟨1, "missing GVRET header"⟩
    | header :: rows =>
      match schemaOf? (withoutCarriageReturn header) with
      | none => .error ⟨1, "malformed GVRET header"⟩
      | some schema => readRows isValid schema 2 rows := by
  rw [parseCsv, parseLines]
  by_cases empty : csv = []
  · rw [if_pos empty, empty, pieces_nil]
    rfl
  rw [if_neg empty]
  split
  next absent =>
    rw [pieces_of_none absent empty, parseLine_header]
    dsimp only
    cases schemaOf? (withoutCarriageReturn csv) <;> rfl
  next index first =>
    rw [pieces_of_some first, parseLine_header]
    dsimp only
    cases schemaOf? (withoutCarriageReturn (csv.take index)) with
    | none => rfl
    | some schema =>
      show (parseLines isValid ⟨some schema, []⟩ 2 (csv.drop (index + 1)) >>= _) = _
      rw [parseLines_rows]
      dsimp only
      cases readRows isValid schema 2 (pieces newline (csv.drop (index + 1))) <;> rfl

end Loop

/-! ### Lines -/

/-- A line: a row, and whether a carriage return ends it. A carriage return at the end always
belongs to the line. -/
structure Line where
  row : Text
  returned : Bool
  unbroken : newline ∉ row
  whole : returned = false → row.getLast? ≠ some carriageReturn

def Line.text (l : Line) : Text := l.row ++ if l.returned then [carriageReturn] else []

theorem Line.withoutCarriageReturn_text (l : Line) : withoutCarriageReturn l.text = l.row := by
  unfold withoutCarriageReturn text
  cases hreturned : l.returned with
  | true => rw [if_pos rfl, List.getLast?_concat, if_pos rfl, List.dropLast_concat]
  | false => rw [if_neg Bool.false_ne_true, List.append_nil, if_neg (l.whole hreturned)]

theorem Line.unbroken_text (l : Line) : newline ∉ l.text := by
  unfold text
  rw [List.mem_append, not_or]
  refine ⟨l.unbroken, ?_⟩
  cases l.returned <;> decide

/-- A text without newlines is a line. -/
theorem exists_line {text : Text} (unbroken : newline ∉ text) : ∃ l : Line, l.text = text := by
  by_cases returned : text.getLast? = some carriageReturn
  · have whole := List.dropLast_append_getLast? _ returned
    refine ⟨⟨text.dropLast, true, fun mem => ?_, nofun⟩, whole⟩
    exact unbroken (List.dropLast_subset _ mem)
  · exact ⟨⟨text, false, unbroken, fun _ => returned⟩, List.append_nil text⟩

theorem exists_lines {texts : List Text} (unbroken : ∀ text ∈ texts, newline ∉ text) :
    ∃ lines : List Line, lines.map Line.text = texts := by
  induction texts with
  | nil => exact ⟨[], rfl⟩
  | cons text texts ih =>
    obtain ⟨first, others⟩ := List.forall_mem_cons.mp unbroken
    obtain ⟨line, rfl⟩ := exists_line first
    obtain ⟨lines, rfl⟩ := ih others
    exact ⟨line :: lines, rfl⟩

/-- The text is a capture of the frames: the header of a schema and a row for each frame, on lines
that newlines separate, with a final newline or without. -/
def IsCapture (csv : Text) (frames : List ParsedGvretFrame) : Prop :=
  ∃ (schema : CsvSchema) (header : Line) (rows : List Line) (final : Bool),
    csv = joined newline ((header :: rows).map Line.text) final ∧
      header.row = headerOf schema ∧
      List.Forall₂ (fun line parsed => IsRow schema line.row parsed) rows frames

/-! ### What the parser accepts -/

variable {isValid : RawCanFrame → Bool}

theorem IsRow.ne_nil {schema : CsvSchema} {row : Text} {parsed : ParsedGvretFrame} :
    IsRow schema row parsed → row ≠ []
  | ⟨c, columns, _⟩ => c.ne_nil schema columns

theorem readRows_eq_ok (classic : ∀ frame, isValid frame = true ↔ InClassicRange frame)
    {lineNumber : ℕ} {lines : List Line} :
    readRows isValid schema lineNumber (lines.map Line.text) = .ok frames ↔
      List.Forall₂ (fun line parsed => IsRow schema line.row parsed) lines frames := by
  rw [readRows, readAll_eq_ok, List.forall₂_map_left_iff]
  simp only [Line.withoutCarriageReturn_text, parseRow_eq_ok_iff classic]

theorem rows_ne_nil {rows : List Line}
    (each : List.Forall₂ (fun line parsed => IsRow schema line.row parsed) rows frames) :
    ∀ line ∈ rows, line.row ≠ [] := by
  induction each with
  | nil => exact nofun
  | cons row _ ih => exact List.forall_mem_cons.mpr ⟨row.ne_nil, ih⟩

/-- The lines of a capture are the pieces of its text. -/
theorem pieces_capture {header : Line} {rows : List Line} (final : Bool)
    (announced : header.row = headerOf schema)
    (each : List.Forall₂ (fun line parsed => IsRow schema line.row parsed) rows frames) :
    pieces newline (joined newline ((header :: rows).map Line.text) final) =
      (header :: rows).map Line.text := by
  have some_row : ∀ line ∈ header :: rows, line.row ≠ [] := by
    refine List.forall_mem_cons.mpr ⟨?_, rows_ne_nil each⟩
    rw [announced]
    cases schema <;> decide
  refine pieces_joined ?_ (by simp) fun _ empty => ?_
  · exact List.forall_mem_map.mpr fun line _ => line.unbroken_text
  · obtain ⟨line, hline, text⟩ := List.mem_map.mp (List.mem_of_getLast? empty)
    exact some_row line hline (List.append_eq_nil_iff.mp text).1

/-- **The parser accepts the captures**, with their frames. -/
theorem parseCsv_eq_ok_iff (classic : ∀ frame, isValid frame = true ↔ InClassicRange frame)
    {csv : Text} : parseCsv isValid csv = .ok frames ↔ IsCapture csv frames := by
  constructor
  · intro accepted
    rw [parseCsv_eq] at accepted
    have free := free_pieces newline csv
    cases hpieces : pieces newline csv with
    | nil =>
      rw [hpieces] at accepted
      cases accepted
    | cons first rest =>
      obtain ⟨final, whole⟩ := @joined_pieces _ _ csv newline
        (by rw [hpieces]; exact List.cons_ne_nil _ _)
      rw [hpieces] at accepted free whole
      obtain ⟨freeFirst, freeRest⟩ := List.forall_mem_cons.mp free
      obtain ⟨header, rfl⟩ := exists_line freeFirst
      obtain ⟨rows, rfl⟩ := exists_lines freeRest
      dsimp only at accepted
      rw [header.withoutCarriageReturn_text] at accepted
      cases hschema : schemaOf? header.row with
      | none =>
        rw [hschema] at accepted
        cases accepted
      | some schema =>
        rw [hschema] at accepted
        exact ⟨schema, header, rows, final, whole, schemaOf?_eq_some.mp hschema,
          (readRows_eq_ok classic).mp accepted⟩
  · rintro ⟨schema, header, rows, final, rfl, announced, each⟩
    rw [parseCsv_eq, pieces_capture final announced each]
    simp only [List.map_cons, Line.withoutCarriageReturn_text,
      schemaOf?_eq_some.mpr announced]
    exact (readRows_eq_ok classic).mpr each

/-! ### What the parser rejects -/

/-- A line of a text, without its carriage return. -/
def rowAt (csv : Text) (i : ℕ) : Option Text :=
  (pieces newline csv)[i]?.map withoutCarriageReturn

/-- The line is what a capture has in its place: a header, then rows of the header's schema. -/
def Fits (csv : Text) : ℕ → Prop
  | 0 => ∃ schema, rowAt csv 0 = some (headerOf schema)
  | i + 1 => ∃ schema row parsed, rowAt csv 0 = some (headerOf schema) ∧
      rowAt csv (i + 1) = some row ∧ IsRow schema row parsed

theorem rowAt_zero {csv header : Text} {rows : List Text}
    (hpieces : pieces newline csv = header :: rows) :
    rowAt csv 0 = some (withoutCarriageReturn header) := by
  rw [rowAt, hpieces]
  rfl

/-- **The parser names the first line that is out of place.** -/
theorem first_offending (classic : ∀ frame, isValid frame = true ↔ InClassicRange frame)
    {csv : Text} {error : ParseError} (rejected : parseCsv isValid csv = .error error) :
    ∃ i, error.lineNumber = i + 1 ∧ (i < (pieces newline csv).length ∨ csv = []) ∧
      ¬Fits csv i ∧ ∀ j < i, Fits csv j := by
  rw [parseCsv_eq] at rejected
  cases hpieces : pieces newline csv with
  | nil =>
    rw [hpieces] at rejected
    obtain rfl := Except.error.inj rejected
    have missing : rowAt csv 0 = none := by
      rw [rowAt, hpieces]
      rfl
    refine ⟨0, rfl, Or.inr (eq_nil_of_pieces hpieces), ?_,
      fun j early => absurd early (Nat.not_lt_zero j)⟩
    rintro ⟨schema, announced⟩
    rw [missing] at announced
    cases announced
  | cons header rows =>
    rw [hpieces] at rejected
    have first := rowAt_zero hpieces
    dsimp only at rejected
    cases hschema : schemaOf? (withoutCarriageReturn header) with
    | none =>
      rw [hschema] at rejected
      obtain rfl := Except.error.inj rejected
      refine ⟨0, rfl, Or.inl (Nat.succ_pos _), ?_, fun j early => absurd early (Nat.not_lt_zero j)⟩
      rintro ⟨schema, announced⟩
      rw [first] at announced
      rw [schemaOf?_eq_some.mpr (Option.some.inj announced)] at hschema
      cases hschema
    | some schema =>
      rw [hschema] at rejected
      rw [schemaOf?_eq_some.mp hschema] at first
      obtain ⟨before, row, after, reason, rfl, fine, bad, rfl⟩ := readAll_eq_error rejected
      have at_row : rowAt csv (before.length + 1) = some (withoutCarriageReturn row) := by
        rw [rowAt, hpieces, List.getElem?_cons_succ, List.getElem?_append_right (Nat.le_refl _),
          Nat.sub_self]
        rfl
      refine ⟨before.length + 1, by show 2 + before.length = _; omega, Or.inl ?_, ?_, ?_⟩
      · simp
      · rintro ⟨schema', row', parsed, announced, there, isRow⟩
        obtain rfl := headerOf_injective (Option.some.inj (first.symm.trans announced))
        obtain rfl := Option.some.inj (at_row.symm.trans there)
        rw [(parseRow_eq_ok_iff classic).mpr isRow] at bad
        cases bad
      · rintro (_ | j) early
        · exact ⟨schema, first⟩
        · have inside : j < before.length := Nat.lt_of_succ_lt_succ early
          obtain ⟨parsed, accepted⟩ := fine before[j] (List.getElem_mem inside)
          refine ⟨schema, _, parsed, first, ?_, (parseRow_eq_ok_iff classic).mp accepted⟩
          rw [rowAt, hpieces, List.getElem?_cons_succ, List.getElem?_append_left inside,
            List.getElem?_eq_getElem inside]
          rfl

/-! ### Printing -/

/-- The text of a list of frames. -/
def printCsv (schema : CsvSchema) (frames : List ParsedGvretFrame) : Text :=
  joined newline (headerOf schema :: frames.map (printRow schema)) true

/-- The line of a printed row. -/
def printedLine (schema : CsvSchema) (parsed : ParsedGvretFrame) : Line where
  row := printRow schema parsed
  returned := false
  unbroken mem := (mem_printRow mem).elim (by decide) (by decide)
  whole _ last := (mem_printRow (List.mem_of_getLast? last)).elim (by decide) (by decide)

def headerLine (schema : CsvSchema) : Line where
  row := headerOf schema
  returned := false
  unbroken := by cases schema <;> decide
  whole := by cases schema <;> decide

theorem text_printedLine (schema : CsvSchema) (parsed : ParsedGvretFrame) :
    (printedLine schema parsed).text = printRow schema parsed := List.append_nil _

/-- **What is printed is a capture** of the frames. -/
theorem isCapture_printCsv (printable : ∀ parsed ∈ frames, Printable schema parsed) :
    IsCapture (printCsv schema frames) frames := by
  refine ⟨schema, headerLine schema, frames.map (printedLine schema), true, ?_, rfl, ?_⟩
  · have header : (headerLine schema).text = headerOf schema := List.append_nil _
    have rows : (frames.map (printedLine schema)).map Line.text = frames.map (printRow schema) := by
      rw [List.map_map]
      exact List.map_congr_left fun parsed _ => text_printedLine schema parsed
    rw [printCsv, List.map_cons, header, rows]
  · rw [List.forall₂_map_left_iff, List.forall₂_same]
    exact fun parsed hparsed => isRow_printRow (printable parsed hparsed)

/-! ### The law of the parser -/

/-- **Captures are parsed.** The parser accepts exactly the captures, with a frame for each row in
order; it gives back every list of frames that was printed in a schema that can carry them; and the
number in an error is that of the first line that is out of place. -/
theorem parse_captures (isValid : RawCanFrame → Bool)
    (classic : ∀ frame, isValid frame = true ↔ InClassicRange frame) :
    (∀ csv frames, parseCsv isValid csv = .ok frames ↔ IsCapture csv frames) ∧
    (∀ schema frames, (∀ parsed ∈ frames, Printable schema parsed) →
      parseCsv isValid (printCsv schema frames) = .ok frames) ∧
    ∀ csv error, parseCsv isValid csv = .error error → ∃ i, error.lineNumber = i + 1 ∧
      (i < (pieces newline csv).length ∨ csv = []) ∧ ¬Fits csv i ∧ ∀ j < i, Fits csv j :=
  ⟨fun _ _ => parseCsv_eq_ok_iff classic,
    fun _ _ printable => (parseCsv_eq_ok_iff classic).mpr (isCapture_printCsv printable),
    fun _ _ => first_offending classic⟩

/-- A sent frame with an extended identifier and two bytes. -/
def sentFrame : ParsedGvretFrame where
  timestampUs := 1000
  bus := 300
  frame :=
    { timestampUs := 1000
      identifier := 0x1ABCDE
      identifierFormat := .extended
      dlc := 2
      data := #v[0xA5, 0x0F, 0, 0, 0, 0, 0, 0] }
  direction := .tx

/-- A received frame with a standard identifier and no data. -/
def receivedFrame : ParsedGvretFrame where
  timestampUs := 2500
  bus := 0
  frame :=
    { timestampUs := 2500
      identifier := 0x7E8
      identifierFormat := .standard
      dlc := 0
      data := #v[0, 0, 0, 0, 0, 0, 0, 0] }
  direction := .rx

/-- Three rows in the second schema. -/
theorem parse_captures_sent :
    parseCsv (fun frame => decide (InClassicRange frame))
        (printCsv .v2 [sentFrame, receivedFrame, sentFrame]) =
      .ok [sentFrame, receivedFrame, sentFrame] := by
  refine (parse_captures _ fun _ => decide_eq_true_iff).2.1 .v2 _ ?_
  have sent : Printable .v2 sentFrame :=
    ⟨by decide, by decide, by decide, by decide, rfl, rfl, rfl, by decide⟩
  have received : Printable .v2 receivedFrame :=
    ⟨by decide, by decide, by decide, by decide, rfl, rfl, rfl, by decide⟩
  rw [List.forall_mem_cons, List.forall_mem_cons, List.forall_mem_singleton]
  exact ⟨sent, received, sent⟩

/-- A header that a carriage return ends, without a newline behind it, is accepted as well. -/
theorem bare_return_accepted :
    ¬∀ isValid : RawCanFrame → Bool, (∀ frame, isValid frame = true ↔ InClassicRange frame) →
      ∀ csv : Text, (∃ frames, parseCsv isValid csv = .ok frames) ↔
        ∃ (schema : CsvSchema) (closed : List (Text × Bool)) (last ending : Text)
          (rows : List Text),
          csv = (closed.flatMap fun line =>
              line.1 ++ (if line.2 then [carriageReturn] else []) ++ [newline]) ++ last ++ ending ∧
            ending ∈ [[], [newline], [carriageReturn, newline]] ∧
            closed.map Prod.fst ++ [last] = headerOf schema :: rows ∧
            ∀ row ∈ rows, ∃ parsed, IsRow schema row parsed := by
  intro grammar
  have stated := grammar (fun frame => decide (InClassicRange frame))
    (fun _ => decide_eq_true_iff) (kLegacyHeader ++ [carriageReturn])
  have accepted : parseCsv (fun frame => decide (InClassicRange frame))
      (kLegacyHeader ++ [carriageReturn]) = .ok [] := by
    rw [parseCsv_eq]
    rfl
  obtain ⟨schema, closed, last, ending, rows, text, ends, lines, -⟩ := stated.mp ⟨[], accepted⟩
  have unbroken : newline ∉ kLegacyHeader ++ [carriageReturn] := by decide
  rw [text, List.mem_append, List.mem_append, not_or, not_or] at unbroken
  obtain ⟨⟨beforeLast, -⟩, afterLast⟩ := unbroken
  -- without a newline there is one line, and nothing may stand behind its header
  have one_line : closed = [] := by
    cases closed with
    | nil => rfl
    | cons line closed =>
      rw [List.flatMap_cons, List.mem_append, not_or] at beforeLast
      exact absurd (List.mem_append_right _ (List.mem_singleton_self newline)) beforeLast.1
  have open_end : ending = [] := by
    rcases List.mem_cons.mp ends with rfl | ends
    · rfl
    · rcases List.mem_pair.mp ends with rfl | rfl <;> exact absurd (by decide) afterLast
  rw [one_line, open_end, List.flatMap_nil, List.nil_append, List.append_nil] at text
  rw [one_line, List.map_nil, List.nil_append] at lines
  rw [(List.cons.inj lines).1] at text
  revert text
  cases schema <;> decide

end AccessoryController.Gvret
