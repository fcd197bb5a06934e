import AccessoryController.CompanionProtocol.LiveSignals
import AccessoryController.Library.BitLayout
import AccessoryController.Library.Pointwise
import Mathlib.Data.List.Pairwise

/-!
# The layout of the live frame

The fields of the frame, bit by bit, and what a sampling pass leaves in them. The fields tile the
frame. The bits of a slot depend on the answer to the read of its own signal alone; a field is zero
where its status has no value-present bit.

## Main definitions

* `fieldPositions`, `statusPositions`: the bits of a slot
* `frameFields`: the fields of the frame
* `SlotOutcome`, `outcomeOf`: what a slot reports of an answer

## Main results

* `frameFields_tile`: the fields tile the frame
* `view_sampleSlot`, `bitIn_sampleSlot`: one iteration of the loop
* `read_sample`: the frame decodes to what the slots report
-/

namespace AccessoryController.CompanionProtocol.LiveSignals

open BitLayout VehicleCore VehicleSignals LiveSignalSampler

/-! ### The fields -/

/-- The bits of a slot's field: a word, a byte, or a bit of the Booleans. -/
def fieldPositions (slot : LiveSignalSlot) : List Position :=
  match slot.type with
  | .number => word slot.position
  | .enum => inByte slot.position 0 8
  | .boolean => inByte (kBooleansOffset + slot.position / 8) (slot.position % 8) 1
  | .unknown _ => []

/-- The bits of a slot's status nibble. -/
def statusPositions (index : ℕ) : List Position :=
  inByte (kStatusOffset + index / 2) (4 * (index % 2)) 4

/-- The fields of the frame: the header, the slots, and the bits that stay zero. -/
def frameFields : List (List Position) :=
  [inByte kLayoutVersionOffset 0 8, inByte kSequenceOffset 0 8, inByte kFlagsOffset 0 8] ++
    liveSignalSlots.map fieldPositions ++
    (List.range kLiveSignalCount).map statusPositions ++
    [inByte (kBooleansOffset + 1) 5 3, inByte (kStatusOffset + kLiveSignalCount / 2) 4 4]

/-- **The fields tile the frame** without overlap. -/
theorem frameFields_tile : Tiles kLiveFrameBytes frameFields :=
  tiles_of_mark (by decide +kernel)

/-- The bits of a slot. -/
def slotPositions (index : ℕ) (slot : LiveSignalSlot) : List Position :=
  fieldPositions slot ++ statusPositions index

/-- Slots of the table have no bit in common. -/
theorem slots_apart : (liveSignalSlots.zipIdx.flatMap fun x => slotPositions x.2 x.1).Nodup := by
  have marks : (mark (liveSignalSlots.zipIdx.flatMap fun x => slotPositions x.2 x.1) 0).isSome =
      true := by decide +kernel
  exact nodup_of_mark (Option.eq_some_of_isSome marks)

variable {slot : LiveSignalSlot} {q : Position} {index : ℕ} {x : SampledSlot}

theorem slotPositions_apart {i j : ℕ} {slot' : LiveSignalSlot}
    (first : liveSignalSlots[i]? = some slot) (second : liveSignalSlots[j]? = some slot')
    (different : i ≠ j) (mem : q ∈ slotPositions i slot) : q ∉ slotPositions j slot' := by
  have disjoint := (List.nodup_flatMap.mp slots_apart).2
  have symmetric : Std.Symm (Function.onFun List.Disjoint
      fun x : LiveSignalSlot × ℕ => slotPositions x.2 x.1) :=
    ⟨fun _ _ apart _ right left => apart left right⟩
  have apart := @List.Pairwise.forall _ _ _ symmetric disjoint (slot, i)
    (List.mem_zipIdx_iff_getElem?.mpr first) (slot', j) (List.mem_zipIdx_iff_getElem?.mpr second)
    fun same => different (congrArg Prod.snd same)
  exact fun mem' => apart mem mem'

/-- The field of a slot lies in the frame, apart from the statuses, and a word or a byte apart from
the Booleans. -/
def WellPlaced (slot : LiveSignalSlot) : Prop :=
  match slot.type with
  | .number => slot.position + 1 < kBooleansOffset ∧ kFlagsOffset < slot.position ∨
      kStatusOffset + kLiveSignalCount / 2 < slot.position ∧ slot.position + 1 < kLiveFrameBytes
  | .enum => kFlagsOffset < slot.position ∧ slot.position < kBooleansOffset
  | .boolean => slot.position < 13
  | .unknown _ => False

instance (slot : LiveSignalSlot) : Decidable (WellPlaced slot) := by
  unfold WellPlaced
  split <;> infer_instance

theorem wellPlaced : ∀ slot ∈ liveSignalSlots, WellPlaced slot := by decide

/-! ### What a slot reports -/

/-- The number that the field of a value carries, where it can carry the value. -/
def fieldValue (slot : LiveSignalSlot) (signal : SignalMetadata) (value : SignalValue) :
    Option ℕ :=
  match slot.type, value with
  | .number, .number number =>
    let scaled := roundScaled number slot.scale
    let range := if slot.signedNumber then kSmallestSignedFieldValue ≤ scaled ∧
        scaled ≤ kLargestSignedFieldValue
      else 0 ≤ number.units ∧ scaled ≤ kLargestUnsignedFieldValue
    if number.isFinite = true ∧ range then some (scaled % 2 ^ 16).toNat else none
  | .enum, .enumeration raw =>
    ((signal.findValue raw).bind fun choice => choiceCode slot choice.key).map UInt8.toNat
  | .boolean, .boolean flag => some flag.toNat
  | _, _ => none

/-- What a slot reports: a status code, and the number in its field if a value is present. -/
structure SlotOutcome where
  code : SignalStatusCode
  field : Option ℕ
  deriving DecidableEq, Repr

/-- What a slot reports of the answer to the read of its signal. -/
def outcomeOf (slot : LiveSignalSlot) (signal : Option SignalMetadata)
    (answer : SignalId → SignalResult SignalReading) : SlotOutcome :=
  match signal with
  | none => ⟨.notSupported, none⟩
  | some signal =>
    match (answer signal.id).success? with
    | none => ⟨failureStatusCode (answer signal.id).status, none⟩
    | some reading =>
      ⟨reportedCode slot reading.availability, reading.value.bind (fieldValue slot signal)⟩

/-- The number in a status nibble. -/
def SlotOutcome.status (o : SlotOutcome) : ℕ := o.code.value + if o.field.isSome then 8 else 0

theorem SlotOutcome.status_lt (o : SlotOutcome) : o.status < 2 ^ 4 := by
  unfold status
  cases o.code <;> cases o.field.isSome <;> decide

/-! ### Bits of what is written -/

theorem bit_writeU16 (bytes : LiveFrame) {offset : ℕ} (inside : offset + 1 < kLiveFrameBytes)
    (v : UInt16) (low : q.2 < 8) : bit (writeU16 bytes offset v) q =
      if q.1 = offset then v.toNat.testBit q.2
      else if q.1 = offset + 1 then v.toNat.testBit (8 + q.2)
      else bit bytes q := by
  have lowByte : v.toUInt8.toBitVec.getLsbD q.2 = v.toNat.testBit q.2 := by
    show v.toUInt8.toNat.testBit q.2 = _
    rw [UInt16.toNat_toUInt8, Nat.testBit_mod_two_pow]
    simp [low]
  have highByte : (v >>> 8).toUInt8.toBitVec.getLsbD q.2 = v.toNat.testBit (8 + q.2) := by
    show (v >>> 8).toUInt8.toNat.testBit q.2 = _
    rw [UInt16.toNat_toUInt8, Nat.testBit_mod_two_pow, UInt16.toNat_shiftRight]
    simp [low, Nat.testBit_shiftRight]
  unfold writeU16
  rw [bit_setIfInBounds _ inside, bit_setIfInBounds _ (by omega), lowByte, highByte]
  by_cases first : q.1 = offset
  · rw [if_neg (by omega), if_pos first, if_pos first]
  · rw [if_neg first, if_neg first]

/-- A bit of the frame as it is packed so far, with the Booleans in their word. -/
def bitIn (p : Packing) (q : Position) : Bool :=
  bit (writeU16 p.bytes kBooleansOffset p.booleans) q

theorem bitIn_eq (p : Packing) (low : q.2 < 8) : bitIn p q =
    if q.1 = kBooleansOffset then p.booleans.toNat.testBit q.2
    else if q.1 = kBooleansOffset + 1 then p.booleans.toNat.testBit (8 + q.2)
    else bit p.bytes q :=
  bit_writeU16 _ (by decide) _ low

/-- The bit of a status nibble in its byte. -/
theorem bit_nibble (code : SignalStatusCode) (present : Bool) (index : ℕ) {place : ℕ}
    (low : place < 8) :
    (statusNibble code present <<< (if index % 2 = 0 then 0 else 4 : UInt8)).toNat.testBit place =
      (decide (4 * (index % 2) ≤ place) &&
        (code.value + if present then 8 else 0).testBit (place - 4 * (index % 2))) := by
  have all : ∀ code ∈ [SignalStatusCode.noData, .fresh, .stale, .freshnessUnverified,
      .unavailable, .readFailed, .notSupported], ∀ present : Bool, ∀ parity < 2, ∀ place < 8,
      (statusNibble code present <<< (if parity = 0 then 0 else 4 : UInt8)).toNat.testBit place =
        (decide (4 * parity ≤ place) &&
          (code.value + if present then 8 else 0).testBit (place - 4 * parity)) := by
    decide +kernel
  exact all code (by cases code <;> decide) present _ (Nat.mod_lt _ (by decide)) place low

theorem bit_writeStatus (bytes : LiveFrame) (inside : index < kLiveSignalCount)
    (code : SignalStatusCode) (present : Bool) (low : q.2 < 8) :
    bit (writeStatus bytes index code present) q = (bit bytes q ||
      (decide (q ∈ statusPositions index) &&
        (code.value + if present then 8 else 0).testBit (q.2 - 4 * (index % 2)))) := by
  have bound : kStatusOffset + index / 2 < kLiveFrameBytes := by
    unfold kLiveSignalCount at inside
    unfold kStatusOffset kLiveFrameBytes
    omega
  have nibble : code.value + (if present then 8 else 0) < 2 ^ 4 := by
    cases code <;> cases present <;> decide
  unfold writeStatus
  rw [bit_setIfInBounds _ bound]
  by_cases here : q.1 = kStatusOffset + index / 2
  · rw [if_pos here]
    show (bytes[kStatusOffset + index / 2]?.getD 0 ||| (_ : UInt8)).toNat.testBit q.2 = _
    rw [UInt8.toNat_or, Nat.testBit_or, bit_nibble code present index low]
    have same : (bytes[kStatusOffset + index / 2]?.getD 0).toNat.testBit q.2 = bit bytes q := by
      rw [bit, here]
      rfl
    rw [same]
    congr 1
    by_cases above : 4 * (index % 2) ≤ q.2
    · by_cases below : q.2 < 4 * (index % 2) + 4
      · have mem : q ∈ statusPositions index := mem_inByte.mpr ⟨here, above, below⟩
        rw [decide_eq_true above, decide_eq_true mem]
      · -- a nibble has no bits past its own four
        rw [Nat.testBit_lt_two_pow (Nat.lt_of_lt_of_le nibble
          (Nat.pow_le_pow_right (by decide) (by omega))), Bool.and_false, Bool.and_false]
    · have outside : q ∉ statusPositions index := fun mem => above (mem_inByte.mp mem).2.1
      rw [decide_eq_false above, decide_eq_false outside, Bool.false_and]
  · have outside : q ∉ statusPositions index := fun mem => here (mem_inByte.mp mem).1
    rw [if_neg here, decide_eq_false outside, Bool.false_and, Bool.or_false]

theorem bitIn_writeStatus (p : Packing) (inside : index < kLiveSignalCount)
    (code : SignalStatusCode) (present : Bool) (low : q.2 < 8) :
    bitIn { p with bytes := writeStatus p.bytes index code present } q = (bitIn p q ||
      (decide (q ∈ statusPositions index) &&
        (code.value + if present then 8 else 0).testBit (q.2 - 4 * (index % 2)))) := by
  rw [bitIn_eq _ low, bitIn_eq _ low, bit_writeStatus _ inside code present low]
  -- the Booleans are no status bits
  have apart : q.1 = kBooleansOffset ∨ q.1 = kBooleansOffset + 1 → q ∉ statusPositions index := by
    intro here mem
    have byte := (mem_inByte.mp mem).1
    unfold kBooleansOffset at here
    unfold kStatusOffset at byte
    omega
  split
  next here => rw [decide_eq_false (apart (Or.inl here)), Bool.false_and, Bool.or_false]
  next =>
    split
    next here => rw [decide_eq_false (apart (Or.inr here)), Bool.false_and, Bool.or_false]
    next => rfl

/-- Writes the number of a field. -/
def putField (slot : LiveSignalSlot) (v : ℕ) (p : Packing) : Packing :=
  match slot.type with
  | .number => { p with bytes := writeU16 p.bytes slot.position (UInt16.ofNat v) }
  | .enum => { p with bytes := p.bytes.setIfInBounds slot.position (UInt8.ofNat v) }
  | .boolean => { p with booleans :=
      if v = 1 then p.booleans ||| (1 <<< UInt16.ofNat slot.position) else p.booleans }
  | .unknown _ => p

/-- **What is written of a value** is the number that its field carries. -/
theorem writeValue_eq (slot : LiveSignalSlot) (signal : SignalMetadata) (value : SignalValue)
    (p : Packing) : writeValue slot signal value p =
      match fieldValue slot signal value with
      | none => (p, false)
      | some v => (putField slot v p, true) := by
  unfold writeValue fieldValue putField
  cases htype : slot.type with
  | number =>
    cases value with
    | number number =>
      unfold writeNumber
      dsimp only [SignalValue.asNumber]
      cases number.isFinite with
      | false => simp
      | true =>
        cases slot.signedNumber with
        | true =>
          by_cases within : kSmallestSignedFieldValue ≤ roundScaled number slot.scale ∧
              roundScaled number slot.scale ≤ kLargestSignedFieldValue
          · have fits : ¬(roundScaled number slot.scale < kSmallestSignedFieldValue ∨
                kLargestSignedFieldValue < roundScaled number slot.scale) := by omega
            simp [within, fits, UInt16.ofInt]
          · have misses : roundScaled number slot.scale < kSmallestSignedFieldValue ∨
                kLargestSignedFieldValue < roundScaled number slot.scale := by omega
            simp [within, misses]
        | false =>
          by_cases negative : number.units < 0
          · simp [negative, Int.not_le.mpr negative]
          · by_cases large : kLargestUnsignedFieldValue < roundScaled number slot.scale
            · simp [negative, large, Int.not_le.mpr large]
            · simp [negative, large, Int.not_lt.mp negative, Int.not_lt.mp large, UInt16.ofInt]
    | boolean flag => rfl
    | enumeration raw => rfl
  | enum =>
    cases value with
    | enumeration raw =>
      unfold writeChoice
      dsimp only [SignalValue.asEnumeration]
      cases signal.findValue raw with
      | none => rfl
      | some choice => cases hcode : choiceCode slot choice.key <;> simp [hcode]
    | boolean flag => rfl
    | number number => rfl
  | boolean =>
    cases value with
    | boolean flag => cases flag <;> rfl
    | number number => rfl
    | enumeration raw => rfl
  | unknown beyond => rfl

def fieldWidth (slot : LiveSignalSlot) : ℕ :=
  match slot.type with
  | .number => 16
  | .enum => 8
  | .boolean => 1
  | .unknown _ => 0

/-- A field has room for its number. -/
theorem fieldValue_lt {signal : SignalMetadata} {value : SignalValue} {v : ℕ}
    (carried : fieldValue slot signal value = some v) : v < 2 ^ fieldWidth slot := by
  unfold fieldValue at carried
  unfold fieldWidth
  cases htype : slot.type with
  | number =>
    rw [htype] at carried
    cases value with
    | number number =>
      simp only [Option.ite_none_right_eq_some, Option.some.injEq] at carried
      obtain ⟨-, rfl⟩ := carried
      show _ < 2 ^ 16
      omega
    | boolean flag => cases carried
    | enumeration raw => cases carried
  | enum =>
    rw [htype] at carried
    cases value with
    | enumeration raw =>
      obtain ⟨code, -, rfl⟩ := Option.map_eq_some_iff.mp carried
      exact code.toNat_lt
    | boolean flag => cases carried
    | number number => cases carried
  | boolean =>
    rw [htype] at carried
    cases value with
    | boolean flag =>
      obtain rfl := Option.some.inj carried
      cases flag <;> decide
    | number number => cases carried
    | enumeration raw => cases carried
  | unknown beyond =>
    rw [htype] at carried
    cases carried

/-- The bits of a field after a number was written over its old bits. -/
def painted (slot : LiveSignalSlot) (v : ℕ) (old : List Bool) : List Bool :=
  match slot.type with
  | .boolean => List.zipWith or old (bitsOf 1 v)
  | _ => bitsOf (fieldWidth slot) v

theorem bitIn_boolean (p : Packing) {position : ℕ} (inside : position < 16) :
    bitIn p (kBooleansOffset + position / 8, position % 8) =
      p.booleans.toNat.testBit position := by
  rw [bitIn_eq p (Nat.mod_lt _ (by decide))]
  by_cases first : position < 8
  · rw [if_pos (by omega), Nat.mod_eq_of_lt first]
  · rw [if_neg (by omega), if_pos (by omega), show 8 + position % 8 = position by omega]

/-- The word of the Booleans with one more bit. -/
theorem testBit_or_one (booleans : UInt16) {position : ℕ} (inside : position < 16) {i : ℕ}
    (low : i < 16) : (booleans ||| (1 <<< UInt16.ofNat position)).toNat.testBit i =
      (booleans.toNat.testBit i || decide (i = position)) := by
  have one : ∀ position < 16, ∀ i < 16,
      ((1 : UInt16) <<< UInt16.ofNat position).toNat.testBit i = decide (i = position) := by
    decide +kernel
  rw [UInt16.toNat_or, Nat.testBit_or, one position inside i low]

section Put

variable {slot : LiveSignalSlot} (placed : WellPlaced slot) (p : Packing)
include placed

/-- A field is written in its own bits. -/
theorem map_putField {v : ℕ} (small : v < 2 ^ fieldWidth slot) :
    (fieldPositions slot).map (bitIn (putField slot v p)) =
      painted slot v ((fieldPositions slot).map (bitIn p)) := by
  unfold WellPlaced kBooleansOffset kFlagsOffset kStatusOffset kLiveSignalCount kLiveFrameBytes
    at placed
  unfold fieldWidth at small
  unfold fieldPositions putField painted fieldWidth
  cases htype : slot.type with
  | number =>
    rw [htype] at placed small
    dsimp only at placed small ⊢
    have number : (UInt16.ofNat v).toNat = v := by
      rw [UInt16.toNat_ofNat']
      omega
    have inside : slot.position + 1 < kLiveFrameBytes := by
      unfold kLiveFrameBytes
      omega
    refine map_word (fun i hi => ?_) fun i hi => ?_
    · rw [bitIn_eq _ hi, if_neg (by unfold kBooleansOffset; omega),
        if_neg (by unfold kBooleansOffset; omega), bit_writeU16 _ inside _ hi, if_pos rfl, number]
    · rw [bitIn_eq _ hi, if_neg (by unfold kBooleansOffset; omega),
        if_neg (by unfold kBooleansOffset; omega), bit_writeU16 _ inside _ hi,
        if_neg (by omega), if_pos rfl, number]
  | enum =>
    rw [htype] at placed small
    dsimp only at placed small ⊢
    have number : (UInt8.ofNat v).toNat = v := by
      rw [UInt8.toNat_ofNat']
      omega
    refine map_inByte fun i hi => ?_
    have low : (slot.position, 0 + i).2 < 8 := by rwa [Nat.zero_add]
    rw [bitIn_eq _ low, if_neg (by unfold kBooleansOffset; omega),
      if_neg (by unfold kBooleansOffset; omega),
      bit_setIfInBounds _ (by unfold kLiveFrameBytes; omega), if_pos rfl, Nat.zero_add]
    show (UInt8.ofNat v).toNat.testBit i = _
    rw [number]
  | boolean =>
    rw [htype] at placed small
    dsimp only at placed small ⊢
    have one : ∀ w : ℕ, bitsOf 1 w = [w.testBit 0] := fun w => rfl
    have position : inByte (kBooleansOffset + slot.position / 8) (slot.position % 8) 1 =
        [(kBooleansOffset + slot.position / 8, slot.position % 8)] := rfl
    rw [position, one, List.map_singleton, List.map_singleton, bitIn_boolean _ (by omega),
      bitIn_boolean _ (by omega)]
    show [_] = [p.booleans.toNat.testBit slot.position || v.testBit 0]
    split
    next set =>
      subst set
      rw [testBit_or_one _ (by omega) (by omega)]
      simp
    next clear =>
      obtain rfl : v = 0 := by omega
      simp
  | unknown beyond =>
    rw [htype] at placed
    exact placed.elim

/-- Writing a field leaves the bits outside of it. -/
theorem bitIn_putField (v : ℕ) (low : q.2 < 8) (outside : q ∉ fieldPositions slot) :
    bitIn (putField slot v p) q = bitIn p q := by
  unfold WellPlaced kBooleansOffset kFlagsOffset kStatusOffset kLiveSignalCount kLiveFrameBytes
    at placed
  unfold fieldPositions at outside
  unfold putField
  rw [bitIn_eq _ low, bitIn_eq _ low]
  cases htype : slot.type with
  | number =>
    rw [htype] at placed outside
    rw [mem_word] at outside
    rw [bit_writeU16 _ (by unfold kLiveFrameBytes; omega) _ low,
      if_neg fun here => outside ⟨Or.inl here, low⟩, if_neg fun here => outside ⟨Or.inr here, low⟩]
  | enum =>
    rw [htype] at placed outside
    rw [mem_inByte] at outside
    rw [bit_setIfInBounds _ (by unfold kLiveFrameBytes; omega)]
    simp only [if_neg (show ¬q.1 = slot.position by omega)]
  | boolean =>
    rw [htype] at placed outside
    dsimp only at placed outside ⊢
    rw [mem_inByte] at outside
    split
    next first =>
      split
      · rw [testBit_or_one _ (by omega) (by omega), decide_eq_false (by omega), Bool.or_false]
      · rfl
    next =>
      split
      next second =>
        split
        · rw [testBit_or_one _ (by omega) (by omega), decide_eq_false (by omega), Bool.or_false]
        · rfl
      next => rfl
  | unknown beyond => rfl

end Put

/-! ### One iteration of the loop -/

/-- The slots of the table, at their places. -/
def SampledSlot.Listed (x : SampledSlot) : Prop := liveSignalSlots[x.index]? = some x.slot

theorem SampledSlot.Listed.lt (listed : x.Listed) :
    x.index < kLiveSignalCount := (List.getElem?_eq_some_iff.mp listed).1

theorem SampledSlot.Listed.placed (listed : x.Listed) : WellPlaced x.slot :=
  wellPlaced _ (List.mem_of_getElem? listed)

/-- What a slot reports in a pass. -/
def SampledSlot.outcome (x : SampledSlot) (read : Answers) : SlotOutcome :=
  outcomeOf x.slot x.signal (read x.index)

/-- Writes the number of a field, if there is one. -/
def putFound (slot : LiveSignalSlot) (field : Option ℕ) (p : Packing) : Packing :=
  match field with
  | none => p
  | some v => putField slot v p

/-- Writes a status. -/
def putStatus (index : ℕ) (o : SlotOutcome) (p : Packing) : Packing :=
  { p with bytes := writeStatus p.bytes index o.code o.field.isSome }

/-- An iteration writes the number and the status that the slot reports. -/
theorem sampleSlot_eq (read : Answers) (p : Packing) (x : SampledSlot) :
    sampleSlot read p x =
      putStatus x.index (x.outcome read) (putFound x.slot (x.outcome read).field p) := by
  unfold sampleSlot SampledSlot.outcome outcomeOf
  cases x.signal with
  | none => rfl
  | some signal =>
    dsimp only
    cases (read x.index signal.id).success? with
    | none => rfl
    | some reading =>
      dsimp only
      cases reading.value with
      | none => rfl
      | some value =>
        dsimp only [Option.bind_some]
        rw [writeValue_eq]
        cases fieldValue x.slot signal value <;> rfl

theorem bitIn_putStatus (inside : index < kLiveSignalCount) (o : SlotOutcome) (p : Packing)
    (low : q.2 < 8) : bitIn (putStatus index o p) q =
      (bitIn p q || (decide (q ∈ statusPositions index) &&
        o.status.testBit (q.2 - 4 * (index % 2)))) :=
  bitIn_writeStatus p inside _ _ low

theorem bitIn_putFound (placed : WellPlaced slot) (p : Packing) (field : Option ℕ) (low : q.2 < 8)
    (outside : q ∉ fieldPositions slot) : bitIn (putFound slot field p) q = bitIn p q := by
  cases field with
  | none => rfl
  | some v => exact bitIn_putField placed p v low outside

theorem map_putFound (placed : WellPlaced slot) (p : Packing) {field : Option ℕ}
    (small : ∀ v, field = some v → v < 2 ^ fieldWidth slot) :
    (fieldPositions slot).map (bitIn (putFound slot field p)) =
      field.elim ((fieldPositions slot).map (bitIn p))
        fun v => painted slot v ((fieldPositions slot).map (bitIn p)) := by
  cases field with
  | none => rfl
  | some v => exact map_putField placed p (small v rfl)

theorem low_of_mem (mem : q ∈ slotPositions index slot) : q.2 < 8 := by
  rcases List.mem_append.mp mem with field | status
  · unfold fieldPositions at field
    split at field
    · exact (mem_word.mp field).2
    · have place := (mem_inByte.mp field).2.2
      omega
    · have place := (mem_inByte.mp field).2.2
      omega
    · cases field
  · have place := (mem_inByte.mp status).2.2
    omega

/-- A slot's field has no bit in common with its status. -/
theorem field_apart_status (listed : x.Listed) (field : q ∈ fieldPositions x.slot) :
    q ∉ statusPositions x.index := by
  have all : ∀ i < kLiveSignalCount, ∀ slot, liveSignalSlots[i]? = some slot →
      ∀ q ∈ fieldPositions slot, q ∉ statusPositions i := by
    intro i hi
    have each : ∀ i < kLiveSignalCount, ∀ q ∈ fieldPositions (liveSignalSlots.getD i {}),
        q ∉ statusPositions i := by decide +kernel
    intro slot hslot q hq
    refine each i hi q ?_
    rwa [List.getD_eq_getElem?_getD, hslot]
  exact all _ listed.lt _ listed q field

/-- The bits of a slot: of its field, and of its status. -/
def view (p : Packing) (index : ℕ) : List Bool × List Bool :=
  match liveSignalSlots[index]? with
  | none => ([], [])
  | some slot => ((fieldPositions slot).map (bitIn p), (statusPositions index).map (bitIn p))

theorem view_of_listed (listed : x.Listed) (p : Packing) :
    view p x.index =
      ((fieldPositions x.slot).map (bitIn p), (statusPositions x.index).map (bitIn p)) := by
  unfold view
  rw [show liveSignalSlots[x.index]? = some x.slot from listed]

/-- The bits of a slot after its iteration. -/
def reported (slot : LiveSignalSlot) (o : SlotOutcome) (old : List Bool × List Bool) :
    List Bool × List Bool :=
  (o.field.elim old.1 fun v => painted slot v old.1, List.zipWith or old.2 (bitsOf 4 o.status))

theorem outcomeOf_lt {signal : Option SignalMetadata}
    {answer : SignalId → SignalResult SignalReading} {v : ℕ}
    (field : (outcomeOf slot signal answer).field = some v) : v < 2 ^ fieldWidth slot := by
  unfold outcomeOf at field
  cases signal with
  | none => cases field
  | some signal =>
    dsimp only at field
    cases hanswer : (answer signal.id).success? with
    | none =>
      rw [hanswer] at field
      cases field
    | some reading =>
      rw [hanswer] at field
      obtain ⟨value, -, carried⟩ := Option.bind_eq_some_iff.mp field
      exact fieldValue_lt carried

section Iteration

variable (read : Answers) (p : Packing) {x : SampledSlot} (listed : x.Listed)
include listed

/-- An iteration leaves the bits of every other field. -/
theorem bitIn_sampleSlot (low : q.2 < 8) (outside : q ∉ slotPositions x.index x.slot) :
    bitIn (sampleSlot read p x) q = bitIn p q := by
  obtain ⟨field, status⟩ := not_or.mp (mt List.mem_append.mpr outside)
  rw [sampleSlot_eq, bitIn_putStatus listed.lt _ _ low, decide_eq_false status, Bool.false_and,
    Bool.or_false, bitIn_putFound listed.placed p _ low field]

/-- **An iteration writes the bits of its slot**: the number that the slot reports, and the
status. -/
theorem view_sampleSlot :
    view (sampleSlot read p x) x.index = reported x.slot (x.outcome read) (view p x.index) := by
  have field : ∀ q ∈ fieldPositions x.slot, q.2 < 8 ∧ q ∉ statusPositions x.index := fun q mem =>
    ⟨low_of_mem (List.mem_append_left (statusPositions x.index) mem),
      field_apart_status listed mem⟩
  have status : ∀ q ∈ statusPositions x.index, q.2 < 8 ∧ q ∉ fieldPositions x.slot := fun q mem =>
    ⟨low_of_mem (List.mem_append_right (fieldPositions x.slot) mem),
      fun mem' => field_apart_status listed mem' mem⟩
  have small : ∀ v, (x.outcome read).field = some v → v < 2 ^ fieldWidth x.slot := fun v =>
    outcomeOf_lt
  have placed := listed.placed
  have bound := listed.lt
  rw [sampleSlot_eq, view_of_listed listed, view_of_listed listed]
  generalize x.outcome read = o at small ⊢
  refine Prod.ext ?_ ?_
  · calc (fieldPositions x.slot).map (bitIn (putStatus x.index o (putFound x.slot o.field p)))
        = (fieldPositions x.slot).map (bitIn (putFound x.slot o.field p)) := by
          refine List.map_congr_left fun q mem => ?_
          rw [bitIn_putStatus bound _ _ (field q mem).1, decide_eq_false (field q mem).2,
            Bool.false_and, Bool.or_false]
      _ = (reported x.slot o (_, _)).1 := map_putFound placed p small
  · show (statusPositions x.index).map _ =
      List.zipWith or ((statusPositions x.index).map (bitIn p)) (bitsOf 4 o.status)
    unfold statusPositions inByte bitsOf
    rw [List.map_map, List.map_map, List.zipWith_map, List.zipWith_self]
    refine List.map_congr_left fun i hi => ?_
    have there : (kStatusOffset + x.index / 2, 4 * (x.index % 2) + i) ∈ statusPositions x.index :=
      List.mem_map_of_mem hi
    have free := status _ there
    rw [Function.comp_apply, Function.comp_apply, bitIn_putStatus bound _ _ free.1,
      bitIn_putFound placed p _ free.1 free.2, decide_eq_true there, Bool.true_and,
      Nat.add_sub_cancel_left]

end Iteration

/-! ### A sampling pass -/

variable (catalog : SignalCatalogView) (read : Answers) (telemetryStarted : Bool)

/-- The slots of a sampler are those of the table. -/
theorem listed_slots (mem : x ∈ (create catalog).slots) :
    x.Listed ∧ x.signal = resolve catalog x.slot := by
  obtain ⟨entry, hentry, rfl⟩ := List.mem_map.mp mem
  have at_index := List.mem_zipIdx_iff_getElem?.mp hentry
  rw [create, List.getElem?_zip_eq_some, List.getElem?_map] at at_index
  obtain ⟨slot, signal⟩ := at_index
  refine ⟨slot, ?_⟩
  rw [slot] at signal
  exact (Option.some.inj signal).symm

theorem index_slots : (create catalog).slots.map SampledSlot.index =
    List.range kLiveSignalCount := by
  have length : (liveSignalSlots.zip (create catalog).resolved).length =
      kLiveSignalCount := by
    rw [List.length_zip, create, List.length_map, Nat.min_self]
    rfl
  rw [slots, List.map_map]
  show (List.zipIdx _).map Prod.snd = _
  rw [List.zipIdx_map_snd, length, List.range_eq_range']

/-- Every slot of the table is sampled. -/
theorem find?_slots (there : liveSignalSlots[index]? = some slot) :
    (create catalog).slots.find? (fun x => x.index = index) =
      some ⟨index, slot, resolve catalog slot⟩ := by
  have inside : index < kLiveSignalCount := (List.getElem?_eq_some_iff.mp there).1
  have mem : index ∈ (create catalog).slots.map SampledSlot.index := by
    rw [index_slots]
    exact List.mem_range.mpr inside
  obtain ⟨x, hx, hindex⟩ := List.mem_map.mp mem
  have found : ((create catalog).slots.find? fun x => x.index = index).isSome :=
    List.find?_isSome.mpr ⟨x, hx, decide_eq_true hindex⟩
  obtain ⟨y, hfind⟩ := Option.isSome_iff_exists.mp found
  have same : y.index = index := by simpa using List.find?_some hfind
  obtain ⟨listed, signal⟩ := listed_slots catalog (List.mem_of_find?_eq_some hfind)
  unfold SampledSlot.Listed at listed
  rw [same, there] at listed
  rw [hfind]
  cases y
  simp_all

/-- What a pass starts with. -/
def started : Packing :=
  { bytes := (Vector.replicate kLiveFrameBytes 0 |>.setIfInBounds kLayoutVersionOffset
        kLiveSignalLayoutVersion).setIfInBounds kFlagsOffset
      (if telemetryStarted then kTelemetryStartedFlag else 0)
    booleans := 0 }

/-- What the loop of a pass has packed. -/
def packed : Packing :=
  (create catalog).slots.foldl (sampleSlot read) (started telemetryStarted)

/-- **The slots of a pass**: the loop leaves in the bits of every slot what the slot reports. -/
theorem view_packed (there : liveSignalSlots[index]? = some slot) :
    view (packed catalog read telemetryStarted) index =
      reported slot (outcomeOf slot (resolve catalog slot) (read index))
        (view (started telemetryStarted) index) := by
  have loop := @Pointwise.foldl Packing ℕ (List Bool × List Bool) SampledSlot _ (fun _ => True)
    view SampledSlot.index (fun x => reported x.slot (x.outcome read)) (sampleSlot read)
    (create catalog).slots (fun _ _ _ _ => trivial) ?_ ?_ ?_
    (started telemetryStarted) trivial index
  · rw [find?_slots catalog there] at loop
    exact loop
  · exact fun p x mem _ => view_sampleSlot read p (listed_slots catalog mem).1
  · intro p x mem _ k other
    have listed := (listed_slots catalog mem).1
    unfold view
    cases hslot : liveSignalSlots[k]? with
    | none => rfl
    | some slot' =>
      have same : ∀ q ∈ slotPositions k slot', bitIn (sampleSlot read p x) q = bitIn p q :=
        fun q hq => bitIn_sampleSlot read p listed (low_of_mem hq)
          (slotPositions_apart hslot listed other hq)
      refine Prod.ext (List.map_congr_left fun q hq => ?_) (List.map_congr_left fun q hq => ?_)
      · exact same q (List.mem_append_left _ hq)
      · exact same q (List.mem_append_right _ hq)
  · rw [index_slots]
    exact List.nodup_range

/-- The bits of the slots lie behind the header, and are clear when a pass starts. -/
theorem clear_started (there : liveSignalSlots[index]? = some slot)
    (mem : q ∈ slotPositions index slot) :
    kFlagsOffset < q.1 ∧ bitIn (started telemetryStarted) q = false := by
  have each : ∀ telemetryStarted : Bool, ∀ i < kLiveSignalCount,
      ∀ q ∈ slotPositions i (liveSignalSlots.getD i {}),
        kFlagsOffset < q.1 ∧ bitIn (started telemetryStarted) q = false := by decide +kernel
  refine each telemetryStarted index (List.getElem?_eq_some_iff.mp there).1 q ?_
  rwa [List.getD_eq_getElem?_getD, there]

theorem decode_painted {v : ℕ} (small : v < 2 ^ fieldWidth slot) :
    decode (painted slot v ((fieldPositions slot).map fun _ => false)) = v := by
  unfold painted fieldWidth fieldPositions at *
  cases htype : slot.type with
  | number =>
    rw [htype] at small
    exact (decode_bitsOf 16 v).trans (Nat.mod_eq_of_lt small)
  | enum =>
    rw [htype] at small
    exact (decode_bitsOf 8 v).trans (Nat.mod_eq_of_lt small)
  | boolean =>
    rw [htype] at small
    rw [zipWith_or_clear (length_inByte _ _ _)]
    exact (decode_bitsOf 1 v).trans (Nat.mod_eq_of_lt small)
  | unknown beyond =>
    rw [htype] at small
    exact (decode_bitsOf 0 v).trans (Nat.mod_eq_of_lt small)

/-- The bits of a slot in the frame are those that the loop left. -/
theorem bit_frame (sequence : UInt8) (behind : kFlagsOffset < q.1) :
    bit (((create catalog).sample read telemetryStarted).frame sequence) q =
      bitIn (packed catalog read telemetryStarted) q := by
  unfold LiveSignalContent.frame
  have elsewhere : ¬q.1 = kSequenceOffset := by
    unfold kFlagsOffset at behind
    unfold kSequenceOffset
    omega
  rw [bit_setIfInBounds _ (by decide), if_neg elsewhere]
  rfl

/-- **The frame decodes** to what the slots report of the reads of their own signals. -/
theorem read_sample (sequence : UInt8) (there : liveSignalSlots[index]? = some slot) :
    let frame := ((create catalog).sample read telemetryStarted).frame sequence
    let o := outcomeOf slot (resolve catalog slot) (read index)
    BitLayout.read frame (fieldPositions slot) = o.field.getD 0 ∧
      BitLayout.read frame (statusPositions index) = o.status := by
  intro frame o
  have small : ∀ v, o.field = some v → v < 2 ^ fieldWidth slot := fun v => outcomeOf_lt
  have bits : ∀ q ∈ slotPositions index slot,
      bit frame q = bitIn (packed catalog read telemetryStarted) q ∧
        bitIn (started telemetryStarted) q = false := fun q mem =>
    ⟨bit_frame catalog read telemetryStarted sequence (clear_started telemetryStarted there mem).1,
      (clear_started telemetryStarted there mem).2⟩
  have reports := view_packed catalog read telemetryStarted there
  unfold view at reports
  rw [there] at reports
  obtain ⟨field, status⟩ := Prod.mk.inj reports
  have clearField : (fieldPositions slot).map (bitIn (started telemetryStarted)) =
      (fieldPositions slot).map fun _ => false :=
    List.map_congr_left fun q mem => (bits q (List.mem_append_left _ mem)).2
  have clearStatus : (statusPositions index).map (bitIn (started telemetryStarted)) =
      (statusPositions index).map fun _ => false :=
    List.map_congr_left fun q mem => (bits q (List.mem_append_right _ mem)).2
  constructor
  · rw [BitLayout.read, List.map_congr_left fun q mem => (bits q (List.mem_append_left _ mem)).1,
      field]
    show decode (o.field.elim _ _) = _
    dsimp only
    rw [clearField]
    cases hfield : o.field with
    | none => exact decode_clear _
    | some v => exact decode_painted (small v hfield)
  · rw [BitLayout.read, List.map_congr_left fun q mem => (bits q (List.mem_append_right _ mem)).1,
      status]
    have sized : (statusPositions index).length = 4 := length_inByte _ _ _
    rw [clearStatus, zipWith_or_clear sized, decode_bitsOf]
    exact Nat.mod_eq_of_lt o.status_lt

/-- The bits of a slot depend on the answer to the read of its own signal alone. -/
theorem bit_sample_congr {read read' : Answers} {telemetryStarted telemetryStarted' : Bool}
    {sequence sequence' : UInt8} (there : liveSignalSlots[index]? = some slot)
    (same : read index = read' index) (mem : q ∈ slotPositions index slot) :
    bit (((create catalog).sample read telemetryStarted).frame sequence) q =
      bit (((create catalog).sample read' telemetryStarted').frame sequence')
        q := by
  have reports := view_packed catalog read telemetryStarted there
  have reports' := view_packed catalog read' telemetryStarted' there
  have clear : view (started telemetryStarted) index = view (started telemetryStarted') index := by
    unfold view
    rw [there]
    refine Prod.ext (List.map_congr_left fun q mem => ?_) (List.map_congr_left fun q mem => ?_)
    · have mem := List.mem_append_left (statusPositions index) mem
      rw [(clear_started telemetryStarted there mem).2, (clear_started telemetryStarted' there mem).2]
    · have mem := List.mem_append_right (fieldPositions slot) mem
      rw [(clear_started telemetryStarted there mem).2, (clear_started telemetryStarted' there mem).2]
  rw [clear, same, ← reports'] at reports
  unfold view at reports
  rw [there] at reports
  obtain ⟨field, status⟩ := Prod.mk.inj reports
  have behind := (clear_started telemetryStarted there mem).1
  rw [bit_frame _ _ _ _ behind, bit_frame _ _ _ _ behind]
  rcases List.mem_append.mp mem with mem | mem
  · exact List.map_inj_left.mp field q mem
  · exact List.map_inj_left.mp status q mem

/-- The loop leaves the bits that belong to no slot. -/
theorem bitIn_packed (low : q.2 < 8)
    (free : ∀ index slot, liveSignalSlots[index]? = some slot → q ∉ slotPositions index slot) :
    bitIn (packed catalog read telemetryStarted) q = bitIn (started telemetryStarted) q := by
  have listed : ∀ x ∈ (create catalog).slots, x.Listed := fun x mem =>
    (listed_slots catalog mem).1
  unfold packed
  generalize (create catalog).slots = slots at listed
  generalize started telemetryStarted = p
  induction slots generalizing p with
  | nil => rfl
  | cons x slots ih =>
    obtain ⟨first, others⟩ := List.forall_mem_cons.mp listed
    rw [List.foldl_cons, ih others]
    exact bitIn_sampleSlot read p first low (free _ _ first)

/-- The sequence number of a frame is the one that it was given. -/
theorem read_sequence (content : LiveSignalContent) (sequence : UInt8) :
    BitLayout.read (content.frame sequence) (inByte kSequenceOffset 0 8) = sequence.toNat := by
  have bits : (inByte kSequenceOffset 0 8).map (bit (content.frame sequence)) =
      bitsOf 8 sequence.toNat := by
    refine map_inByte fun i _ => ?_
    unfold LiveSignalContent.frame
    rw [bit_setIfInBounds _ (by decide), if_pos rfl, Nat.zero_add]
    rfl
  rw [BitLayout.read, bits, decode_bitsOf]
  exact Nat.mod_eq_of_lt sequence.toNat_lt

/-- The fields of the header, and the bits that stay clear. -/
theorem read_header (sequence : UInt8) :
    let frame := ((create catalog).sample read telemetryStarted).frame sequence
    BitLayout.read frame (inByte kLayoutVersionOffset 0 8) = 2 ∧
      BitLayout.read frame (inByte kSequenceOffset 0 8) = sequence.toNat ∧
      BitLayout.read frame (inByte kFlagsOffset 0 8) = telemetryStarted.toNat ∧
      BitLayout.read frame (inByte (kBooleansOffset + 1) 5 3) = 0 ∧
      BitLayout.read frame (inByte (kStatusOffset + kLiveSignalCount / 2) 4 4) = 0 := by
  intro frame
  have free : ∀ q ∈ inByte kLayoutVersionOffset 0 8 ++ inByte kFlagsOffset 0 8 ++
      inByte (kBooleansOffset + 1) 5 3 ++ inByte (kStatusOffset + kLiveSignalCount / 2) 4 4,
      bit frame q = bitIn (started telemetryStarted) q := by
    have each : ∀ q ∈ inByte kLayoutVersionOffset 0 8 ++ inByte kFlagsOffset 0 8 ++
        inByte (kBooleansOffset + 1) 5 3 ++ inByte (kStatusOffset + kLiveSignalCount / 2) 4 4,
        q.2 < 8 ∧ q.1 ≠ kSequenceOffset ∧
          ∀ i < kLiveSignalCount, q ∉ slotPositions i (liveSignalSlots.getD i {}) := by
      decide +kernel
    intro q mem
    obtain ⟨low, elsewhere, apart⟩ := each q mem
    have unpacked : bit frame q = bitIn (packed catalog read telemetryStarted) q := by
      show bit (LiveSignalContent.frame _ _) q = _
      unfold LiveSignalContent.frame
      rw [bit_setIfInBounds _ (by decide), if_neg elsewhere]
      rfl
    rw [unpacked]
    refine bitIn_packed catalog read telemetryStarted low fun index slot there mem => ?_
    refine apart index (List.getElem?_eq_some_iff.mp there).1 ?_
    rwa [List.getD_eq_getElem?_getD, there]
  have starts : ∀ telemetryStarted : Bool,
      decode ((inByte kLayoutVersionOffset 0 8).map (bitIn (started telemetryStarted))) = 2 ∧
      decode ((inByte kFlagsOffset 0 8).map (bitIn (started telemetryStarted))) =
        telemetryStarted.toNat ∧
      decode ((inByte (kBooleansOffset + 1) 5 3).map (bitIn (started telemetryStarted))) = 0 ∧
      decode ((inByte (kStatusOffset + kLiveSignalCount / 2) 4 4).map
        (bitIn (started telemetryStarted))) = 0 := by
    decide +kernel
  obtain ⟨version, flags, booleans, status⟩ := starts telemetryStarted
  refine ⟨?_, ?_, ?_, ?_, ?_⟩
  · rw [BitLayout.read, List.map_congr_left fun q mem => free q (by simp [mem]), version]
  · exact read_sequence _ sequence
  · rw [BitLayout.read, List.map_congr_left fun q mem => free q (by simp [mem]), flags]
  · rw [BitLayout.read, List.map_congr_left fun q mem => free q (by simp [mem]), booleans]
  · rw [BitLayout.read, List.map_congr_left fun q mem => free q (by simp [mem]), status]

end AccessoryController.CompanionProtocol.LiveSignals
