import Mathlib.Data.List.Nodup
import AccessoryController.Library.BitField
import AccessoryController.ProfileRuntime.Extract
import AccessoryController.VehicleProfiles.BitCoordinates

/-!
# Extraction follows the bit coordinates

The runtime's walk of a field visits the positions that the host tool computes for it. A raw value
is made of the payload bits at these positions and of nothing else.

## Main definitions

* `bitAt`: a bit of a payload
* `gather`: the accumulation of some bits, in the order of a walk
* `ByteOrder.place`: the place of a coordinate's bit in a raw value
* `writeField`: a payload with a raw value written at some coordinates

## Main results

* `extractBits_eq`: the walk, over the coordinates of the host tool
* `getLsbD_gather`: the bits of what is gathered
* `bitAt_writeField`: the bits of a written payload
* `extract_follows_coordinates`: extraction against the coordinates
-/

namespace AccessoryController.ProfileRuntime

open VehicleCore
open VehicleProfiles (occupiedBits occupiedBitsOf nextMotorola length_occupiedBits
  nodup_occupiedBits)

abbrev Payload := Vector UInt8 kCanClassicPayloadBytes

/-- The bit of a payload at a position. -/
def bitAt (data : Payload) (position : ℕ) : Bool :=
  (data[position / 8]?.getD 0).toBitVec.getLsbD (position % 8)

/-- The host tool's name of a byte order. -/
def ByteOrder.sourceName : ByteOrder → String
  | .intel => "intel"
  | .motorola => "motorola"

def ByteOrder.host : ByteOrder → VehicleProfiles.ByteOrder
  | .intel => .intel
  | .motorola => .motorola

variable {length : ℕ} (data : Payload) (order : ByteOrder)

theorem occupiedBitsOf_eq {start : ℕ} (bounds : 1 ≤ length ∧ length ≤ 64) (order : ByteOrder) :
    occupiedBitsOf start length order.sourceName = .ok (occupiedBits start length order.host) := by
  have accepted : ¬ ((start : ℤ) < 0 ∨ ¬ (1 ≤ (length : ℤ) ∧ (length : ℤ) ≤ 64)) := by omega
  rw [occupiedBitsOf, if_neg accepted, Int.toNat_natCast, Int.toNat_natCast]
  cases order <;> rfl

/-! ### The walk -/

/-- One bit as a word. -/
def bitWord (data : Payload) (position : ℕ) : BitVec 64 :=
  (BitVec.ofBool (bitAt data position)).setWidth 64

/-- What a walk makes of the bits at some coordinates, the first of them at `index`. -/
def gather (data : Payload) (order : ByteOrder) : ℕ → BitVec 64 → List ℕ → BitVec 64
  | _, bits, [] => bits
  | index, bits, c :: coordinates =>
    gather data order (index + 1)
      (match order with
        | .intel => bits ||| bitWord data c <<< index
        | .motorola => bits <<< 1 ||| bitWord data c)
      coordinates

theorem payloadBit_eq {position : ℕ} (inside : position < kPayloadBits) :
    ∃ bit, payloadBit data position = .ok bit ∧ bit.setWidth 64 = bitWord data position := by
  have byte : position / 8 < kCanClassicPayloadBytes := Nat.div_lt_of_lt_mul (by
    rwa [Nat.mul_comm])
  refine ⟨_, by rw [payloadBit, Checked.get_eq byte, Checked.ok_bind]; rfl, ?_⟩
  ext i hi
  have stored : data[position / 8]? = some (data.get ⟨position / 8, byte⟩) :=
    Vector.getElem?_eq_getElem byte
  rw [bitWord, bitAt, stored, Option.getD_some]
  have within : position % 8 < 64 := by omega
  by_cases low : i = 0 <;> simp [low, within]

/-- The walk goes to the next coordinate of the host tool. -/
theorem occupiedBits_succ (position length : ℕ) (order : ByteOrder) :
    occupiedBits position (length + 1) order.host = position :: occupiedBits
      (match order with
        | .intel => position + 1
        | .motorola => if position % 8 = 0 then position + 15 else position - 1)
      length order.host := by
  cases order with
  | intel => rfl
  | motorola =>
    change position :: VehicleProfiles.motorolaBits (nextMotorola position) length = _
    rw [nextMotorola]
    by_cases bottom : position % 8 = 0
    · rw [if_neg (not_not.mpr bottom)]
      simp only [bottom, if_true]
      rfl
    · rw [if_pos bottom]
      simp only [bottom, if_false]
      rfl

/-- **The walk** gathers the bits at the coordinates of the host tool, or fails when one of them
lies past the payload. No byte past the eighth is read. -/
theorem extractBits_eq {payloadBits : ℕ} (inside : payloadBits ≤ kPayloadBits) (order : ByteOrder)
    (remaining index position : ℕ) (bits : BitVec 64) (room : index + remaining ≤ 64) :
    extractBits data payloadBits order remaining index position bits =
      .ok (if ∀ c ∈ occupiedBits position remaining order.host, c < payloadBits then
        some (gather data order index bits (occupiedBits position remaining order.host))
      else none) := by
  induction remaining generalizing index position bits with
  | zero => cases order <;> simp [extractBits, occupiedBits, gather, VehicleProfiles.motorolaBits,
      ByteOrder.host, pure, Except.pure]
  | succ remaining ih =>
    rw [occupiedBits_succ, extractBits]
    by_cases missing : payloadBits ≤ position
    · -- The first bit that the frame does not carry ends the walk.
      have cut : ¬ ∀ c ∈ position :: occupiedBits
          (match order with
            | .intel => position + 1
            | .motorola => if position % 8 = 0 then position + 15 else position - 1)
          remaining order.host, c < payloadBits := fun all =>
        Nat.not_lt.mpr missing (all position List.mem_cons_self)
      rw [if_pos missing, if_neg cut]
      rfl
    · have present : position < payloadBits := Nat.lt_of_not_le missing
      obtain ⟨bit, read, word⟩ := payloadBit_eq data (Nat.lt_of_lt_of_le present inside)
      rw [if_neg missing, read, Checked.ok_bind]
      simp only [List.forall_mem_cons, present, true_and]
      cases order with
      | intel =>
        have shift : index < 64 := by omega
        simp only [Checked.shiftLeft_eq shift, Checked.ok_bind, word]
        exact ih (index + 1) (position + 1) _ (by omega)
      | motorola =>
        have shift : 1 < 64 := by decide
        simp only [Checked.shiftLeft_eq shift, Checked.ok_bind, word]
        exact ih (index + 1) _ _ (by omega)

/-! ### The bits of a raw value -/

theorem getLsbD_bitWord (position i : ℕ) :
    (bitWord data position).getLsbD i = (decide (i = 0) && bitAt data position) := by
  by_cases low : i = 0 <;> simp [bitWord, low, BitVec.getLsbD_ofBool]

theorem getLsbD_gather_intel (coordinates : List ℕ) (index : ℕ) (bits : BitVec 64)
    (room : index + coordinates.length ≤ 64) (i : ℕ) :
    (gather data .intel index bits coordinates).getLsbD i =
      (bits.getLsbD i ||
        decide (index ≤ i) && ((coordinates[i - index]?).map (bitAt data)).getD false) := by
  induction coordinates generalizing index bits with
  | nil => simp [gather]
  | cons c coordinates ih =>
    rw [List.length_cons] at room
    rw [gather, ih (index + 1) _ (by omega), BitVec.getLsbD_or, BitVec.getLsbD_shiftLeft,
      getLsbD_bitWord]
    rcases Nat.lt_trichotomy i index with below | rfl | above
    · have before : ¬ index + 1 ≤ i := by omega
      simp [below, before, Nat.not_le.mpr below]
    · have fits : i < 64 := by omega
      simp [fits]
    · obtain ⟨k, rfl⟩ := Nat.exists_eq_add_of_lt above
      have later : index + k + 1 - index = k + 1 := by omega
      have rest : index + k + 1 - (index + 1) = k := by omega
      have order : index ≤ index + k + 1 ∧ index + 1 ≤ index + k + 1 := by omega
      simp [later, rest, order]

theorem getLsbD_gather_motorola (coordinates : List ℕ) (index : ℕ) (bits : BitVec 64) {i : ℕ}
    (hi : i < 64) :
    (gather data .motorola index bits coordinates).getLsbD i =
      if i < coordinates.length then
        ((coordinates[coordinates.length - 1 - i]?).map (bitAt data)).getD false
      else bits.getLsbD (i - coordinates.length) := by
  induction coordinates generalizing index bits with
  | nil => simp [gather]
  | cons c coordinates ih =>
    rw [gather, ih, List.length_cons]
    rcases Nat.lt_trichotomy i coordinates.length with below | rfl | above
    · -- The bits that come later have pushed this coordinate up.
      have earlier : coordinates.length + 1 - 1 - i = coordinates.length - 1 - i + 1 := by omega
      rw [if_pos below, if_pos (by omega), earlier, List.getElem?_cons_succ]
    · rw [if_neg (Nat.lt_irrefl _), if_pos (Nat.lt_succ_self _), Nat.sub_self,
        BitVec.getLsbD_or, getLsbD_bitWord]
      simp
    · have beyond : ¬ i < coordinates.length + 1 := by omega
      have positive : i - coordinates.length ≠ 0 := by omega
      have inner : i - coordinates.length < 64 := by omega
      have next : i - coordinates.length - 1 = i - (coordinates.length + 1) := by omega
      rw [if_neg (by omega), if_neg beyond, BitVec.getLsbD_or, getLsbD_bitWord,
        BitVec.getLsbD_shiftLeft]
      simp [positive, inner, next]

/-- Where the bit of the `i`-th coordinate stands: Intel fields begin with their least significant
bit, Motorola fields with their most significant one. -/
def ByteOrder.place (order : ByteOrder) (length i : ℕ) : ℕ :=
  match order with
  | .intel => i
  | .motorola => length - 1 - i

/-- **The bits of what is gathered** are those at the coordinates, each in its place. -/
theorem getLsbD_gather (coordinates : List ℕ) (room : coordinates.length ≤ 64) :
    (∀ i c, coordinates[i]? = some c →
      (gather data order 0 0 coordinates).getLsbD (order.place coordinates.length i) =
        bitAt data c) ∧
      ∀ i, coordinates.length ≤ i → (gather data order 0 0 coordinates).getLsbD i = false := by
  cases order with
  | intel =>
    have bits := getLsbD_gather_intel data coordinates 0 0 (by omega)
    constructor
    · intro i c at_i
      rw [ByteOrder.place, bits, Nat.sub_zero, at_i]
      simp
    · intro i beyond
      rw [bits, Nat.sub_zero, List.getElem?_eq_none beyond]
      simp
  | motorola =>
    constructor
    · intro i c at_i
      obtain ⟨below, -⟩ := List.getElem?_eq_some_iff.mp at_i
      have back : coordinates.length - 1 - (coordinates.length - 1 - i) = i := by omega
      rw [ByteOrder.place, getLsbD_gather_motorola data coordinates 0 0 (by omega),
        if_pos (by omega), back, at_i]
      rfl
    · intro i beyond
      by_cases hi : i < 64
      · rw [getLsbD_gather_motorola data coordinates 0 0 hi, if_neg (Nat.not_lt.mpr beyond)]
        simp
      · exact BitVec.getLsbD_of_ge _ _ (Nat.le_of_not_lt hi)

theorem place_place {i : ℕ} (h : i < length) :
    order.place length (order.place length i) = i ∧ order.place length i < length := by
  cases order with
  | intel => exact ⟨rfl, h⟩
  | motorola =>
    simp only [ByteOrder.place]
    omega

/-- What is gathered depends on the bits at the coordinates only. -/
theorem gather_congr {data data' : Payload} {coordinates : List ℕ}
    (same : ∀ c ∈ coordinates, bitAt data' c = bitAt data c) (order : ByteOrder) (index : ℕ)
    (bits : BitVec 64) :
    gather data' order index bits coordinates = gather data order index bits coordinates := by
  induction coordinates generalizing index bits with
  | nil => rfl
  | cons c coordinates ih =>
    have first : bitWord data' c = bitWord data c := by
      rw [bitWord, bitWord, same c List.mem_cons_self]
    cases order <;> rw [gather, gather, first] <;>
      exact ih (fun c mem => same c (List.mem_cons_of_mem _ mem)) _ _

/-! ### Writing a field -/

/-- A payload with one bit set or cleared. -/
def writeBit (data : Payload) (position : ℕ) (bit : Bool) : Payload :=
  let byte := data[position / 8]?.getD 0
  let mask := BitVec.twoPow 8 (position % 8)
  data.setIfInBounds (position / 8)
    ⟨if bit then byte.toBitVec ||| mask else byte.toBitVec &&& ~~~mask⟩

theorem bitAt_writeBit {position : ℕ} (inside : position < kPayloadBits) (bit : Bool) (c : ℕ) :
    bitAt (writeBit data position bit) c = if c = position then bit else bitAt data c := by
  have byte : position / 8 < kCanClassicPayloadBytes := Nat.div_lt_of_lt_mul (by
    rwa [Nat.mul_comm])
  have low : c % 8 < 8 := Nat.mod_lt _ (by decide)
  unfold bitAt writeBit
  rw [Vector.getElem?_setIfInBounds]
  by_cases sameByte : position / 8 = c / 8
  · rw [if_pos sameByte, if_pos (sameByte ▸ byte), Option.getD_some, sameByte]
    by_cases here : c = position
    · subst here
      cases bit <;> simp [low]
    · have other : c % 8 ≠ position % 8 := by omega
      rw [if_neg here]
      cases bit <;> simp [low, other]
  · have elsewhere : c ≠ position := fun same => sameByte (by rw [same])
    rw [if_neg sameByte, if_neg elsewhere]

/-- Writes a bit at each coordinate. -/
def writeBits (data : Payload) : List (ℕ × Bool) → Payload
  | [] => data
  | (position, bit) :: rest => writeBits (writeBit data position bit) rest

/-- A raw value, as the bits that belong at some coordinates. -/
def fieldBits (order : ByteOrder) (raw : BitVec 64) (coordinates : List ℕ) : List (ℕ × Bool) :=
  coordinates.mapIdx fun i c => (c, raw.getLsbD (order.place coordinates.length i))

/-- **A payload with a raw value written** at the coordinates of a field. -/
def writeField (data : Payload) (order : ByteOrder) (raw : BitVec 64) (coordinates : List ℕ) :
    Payload :=
  writeBits data (fieldBits order raw coordinates)

theorem bitAt_writeBits_of_notMem {bits : List (ℕ × Bool)} (inside : ∀ p ∈ bits, p.1 < kPayloadBits)
    {c : ℕ} (free : c ∉ bits.map Prod.fst) : bitAt (writeBits data bits) c = bitAt data c := by
  induction bits generalizing data with
  | nil => rfl
  | cons p bits ih =>
    rw [List.map_cons, List.mem_cons, not_or] at free
    rw [writeBits, ih _ (fun q mem => inside q (List.mem_cons_of_mem _ mem)) free.2,
      bitAt_writeBit data (inside p List.mem_cons_self), if_neg free.1]

theorem bitAt_writeBits_of_mem {bits : List (ℕ × Bool)} (inside : ∀ p ∈ bits, p.1 < kPayloadBits)
    (nodup : (bits.map Prod.fst).Nodup) {c : ℕ} {bit : Bool} (mem : (c, bit) ∈ bits) :
    bitAt (writeBits data bits) c = bit := by
  induction bits generalizing data with
  | nil => cases mem
  | cons p bits ih =>
    have rest : ∀ q ∈ bits, q.1 < kPayloadBits := fun q mem =>
      inside q (List.mem_cons_of_mem _ mem)
    rw [List.map_cons, List.nodup_cons] at nodup
    rcases List.mem_cons.mp mem with rfl | later
    · -- No later write touches this coordinate again.
      rw [writeBits, bitAt_writeBits_of_notMem _ rest nodup.1,
        bitAt_writeBit data (inside (c, bit) List.mem_cons_self), if_pos rfl]
    · exact ih _ rest nodup.2 later

theorem map_fst_fieldBits (raw : BitVec 64) (coordinates : List ℕ) :
    (fieldBits order raw coordinates).map Prod.fst = coordinates := by
  refine List.ext_getElem? fun i => ?_
  rw [fieldBits, List.getElem?_map, List.getElem?_mapIdx]
  cases coordinates[i]? <;> rfl

/-- **The bits of a written payload**: those of the raw value at the coordinates, and the bits that
were there elsewhere. -/
theorem bitAt_writeField (raw : BitVec 64) {coordinates : List ℕ}
    (inside : ∀ c ∈ coordinates, c < kPayloadBits) (nodup : coordinates.Nodup) :
    (∀ i c, coordinates[i]? = some c →
      bitAt (writeField data order raw coordinates) c =
        raw.getLsbD (order.place coordinates.length i)) ∧
      ∀ c, c ∉ coordinates → bitAt (writeField data order raw coordinates) c = bitAt data c := by
  have keys := map_fst_fieldBits order raw coordinates
  have within : ∀ p ∈ fieldBits order raw coordinates, p.1 < kPayloadBits := by
    intro p mem
    exact inside p.1 (keys ▸ List.mem_map_of_mem mem)
  constructor
  · intro i c at_i
    refine bitAt_writeBits_of_mem data within (keys.symm ▸ nodup) ?_
    refine List.mem_of_getElem? (i := i) ?_
    rw [fieldBits, List.getElem?_mapIdx, at_i]
    rfl
  · intro c free
    exact bitAt_writeBits_of_notMem data within (keys.symm ▸ free)

/-! ### Extraction -/

/-- A data frame with an eleven-bit identifier and at most eight bytes. -/
structure StandardData (frame : RawCanFrame) : Prop where
  dlc : frame.dlc ≤ kCanClassicPayloadBytes
  data : frame.remoteRequest = false
  format : frame.identifierFormat = .standard
  identifier : frame.identifier ≤ 0x7ff

/-- Extraction from a standard frame, over the coordinates. -/
theorem extractRawValue_eq {frame : RawCanFrame} (standard : StandardData frame) {start : ℕ}
    (starts : start < 64) (bounds : 1 ≤ length ∧ length ≤ 64) (order : ByteOrder)
    (isSigned : Bool) :
    extractRawValue frame start length order isSigned =
      .ok (if ∀ c ∈ occupiedBits start length order.host, c < frame.dlc * 8 then
        some ⟨gather frame.data order 0 0 (occupiedBits start length order.host), length, isSigned⟩
      else none) := by
  have inside : frame.dlc * 8 ≤ kPayloadBits := Nat.mul_le_mul_right 8 standard.dlc
  have accepted : ¬ (kCanClassicPayloadBytes < frame.dlc ∨ frame.remoteRequest = true ∨
      frame.identifierFormat ≠ .standard ∨ 0x7ff < frame.identifier ∨ length = 0 ∨
      64 < length ∨ kPayloadBits ≤ start) := by
    rintro (h | h | h | h | h | h | h)
    · exact Nat.not_lt.mpr standard.dlc h
    · exact Bool.false_ne_true (standard.data ▸ h)
    · exact h standard.format
    · exact Nat.not_lt.mpr standard.identifier h
    · omega
    · omega
    · exact Nat.not_le.mpr starts h
  rw [extractRawValue, if_neg accepted,
    extractBits_eq frame.data inside order length 0 start 0 (by omega), Checked.ok_bind]
  split_ifs <;> rfl

theorem ext_of_places {first second : BitVec 64} (small : first.toNat < 2 ^ length)
    (small' : second.toNat < 2 ^ length)
    (same : ∀ i < length, first.getLsbD (order.place length i) =
      second.getLsbD (order.place length i)) : first = second := by
  refine BitVec.eq_of_getLsbD_eq fun i _ => ?_
  by_cases within : i < length
  · obtain ⟨back, placed⟩ := place_place order within
    have := same (order.place length i) placed
    rwa [back] at this
  · rw [BitField.toNat_lt_iff.mp small i (Nat.le_of_not_lt within),
      BitField.toNat_lt_iff.mp small' i (Nat.le_of_not_lt within)]

/-- **Extraction follows the bit coordinates** of the host tool. It succeeds exactly when the frame
carries all of them; the raw value has the payload's bits, each in its place, and no others; it
depends on no other bit of the payload; and a raw value written at the coordinates is the one that
is extracted, while fields without a common coordinate stay as they are. -/
theorem extract_follows_coordinates {frame : RawCanFrame} (standard : StandardData frame)
    (start length : ℕ) (starts : start < 64) (bounds : 1 ≤ length ∧ length ≤ 64)
    (order : ByteOrder) (isSigned : Bool) :
    ∃ coordinates, occupiedBitsOf start length order.sourceName = .ok coordinates ∧
      ((∀ c ∈ coordinates, c < 8 * frame.dlc) → ∃ bits : BitVec 64,
        extractRawValue frame start length order isSigned =
            .ok (some ⟨bits, length, isSigned⟩) ∧
          bits.toNat < 2 ^ length ∧
          ∀ i c, coordinates[i]? = some c →
            bits.getLsbD (order.place length i) = bitAt frame.data c) ∧
      (¬ (∀ c ∈ coordinates, c < 8 * frame.dlc) →
        extractRawValue frame start length order isSigned = .ok none) ∧
      (∀ data : Payload, (∀ c ∈ coordinates, bitAt data c = bitAt frame.data c) →
        extractRawValue { frame with data } start length order isSigned =
          extractRawValue frame start length order isSigned) ∧
      ∀ raw : BitVec 64, raw.toNat < 2 ^ length → (∀ c ∈ coordinates, c < 8 * frame.dlc) →
        extractRawValue { frame with data := writeField frame.data order raw coordinates }
            start length order isSigned = .ok (some ⟨raw, length, isSigned⟩) ∧
          ∀ (start' length' : ℕ) (order' : ByteOrder) (isSigned' : Bool) (coordinates' : List ℕ),
            start' < 64 → 1 ≤ length' ∧ length' ≤ 64 →
            occupiedBitsOf start' length' order'.sourceName = .ok coordinates' →
            coordinates.Disjoint coordinates' →
            extractRawValue { frame with data := writeField frame.data order raw coordinates }
                start' length' order' isSigned' =
              extractRawValue frame start' length' order' isSigned' := by
  have count : (occupiedBits start length order.host).length = length :=
    length_occupiedBits start length order.host
  have rewritten : ∀ data : Payload, StandardData { frame with data } := fun data =>
    ⟨standard.dlc, standard.data, standard.format, standard.identifier⟩
  have extracted := fun data : Payload =>
    extractRawValue_eq (rewritten data) starts bounds order isSigned
  have here := extractRawValue_eq standard starts bounds order isSigned
  have gathered := fun data : Payload => getLsbD_gather data order
    (occupiedBits start length order.host) (by rw [count]; exact bounds.2)
  rw [Nat.mul_comm] at here
  refine ⟨occupiedBits start length order.host, occupiedBitsOf_eq bounds order, ?_, ?_, ?_, ?_⟩
  · intro carried
    obtain ⟨placed, beyond⟩ := gathered frame.data
    rw [count] at placed beyond
    exact ⟨_, by rw [here, if_pos carried], BitField.toNat_lt_iff.mpr beyond, placed⟩
  · intro missing
    rw [here, if_neg missing]
  · intro data same
    rw [extracted data, here, Nat.mul_comm, gather_congr same]
  · intro raw small carried
    have inside : ∀ c ∈ occupiedBits start length order.host, c < kPayloadBits := fun c mem =>
      Nat.lt_of_lt_of_le (carried c mem) (Nat.mul_le_mul_left 8 standard.dlc)
    obtain ⟨written, kept⟩ := bitAt_writeField frame.data order raw inside
      (nodup_occupiedBits start length order.host)
    constructor
    · obtain ⟨placed, beyond⟩ := gathered (writeField frame.data order raw
        (occupiedBits start length order.host))
      rw [count] at placed beyond written
      rw [extracted, Nat.mul_comm, if_pos carried]
      congr 3
      -- Both words are short, and each coordinate's place holds what was written there.
      refine ext_of_places order (BitField.toNat_lt_iff.mpr beyond) small ?_
      intro i within
      have inRange : i < (occupiedBits start length order.host).length := by rwa [count]
      have at_i := List.getElem?_eq_getElem inRange
      rw [placed i _ at_i, written i _ at_i]
    · intro start' length' order' isSigned' coordinates' starts' bounds' coordinates_eq disjoint
      rw [occupiedBitsOf_eq bounds' order'] at coordinates_eq
      cases coordinates_eq
      rw [extractRawValue_eq standard starts' bounds',
        extractRawValue_eq (rewritten _) starts' bounds',
        gather_congr fun c mem => kept c fun taken => disjoint taken mem]

/-- A Motorola field that goes on in the next byte. -/
theorem extract_follows_coordinates_straddling :
    extractRawValue
        { dlc := 2
          data := writeField (Vector.replicate 8 0xFF) .motorola 0xB5
            [2, 1, 0, 15, 14, 13, 12, 11] } 2 8 .motorola false =
      .ok (some ⟨0xB5, 8, false⟩) := by
  have standard : StandardData { dlc := 2, data := Vector.replicate 8 0xFF } :=
    ⟨by decide, rfl, rfl, by decide⟩
  obtain ⟨coordinates, found, -, -, -, written⟩ := extract_follows_coordinates standard
    2 8 (by decide) (by decide) .motorola false
  cases found
  exact (written 0xB5 (by decide) (by decide)).1

end AccessoryController.ProfileRuntime
