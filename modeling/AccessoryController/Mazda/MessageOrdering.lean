import AccessoryController.Mazda.VehicleSlots
import AccessoryController.VehicleCore.DocumentedSlot
import Mathlib.Data.Fintype.EquivFin

/-!
# The order of the frames of a message

The record of a message keeps its newest frame. A frame that is not newer leaves the state as it
is, and a fault lasts until a newer frame decodes. The table of the records has a place for every
message that the decoders own, so that no frame is ever lost for want of one.

## Main definitions

* `watermark`: the time of the newest frame of a message
* `Tracked`: the records are of owned messages, one for each, and a free record is blank
* `runFrames`: the state after some frames

## Main results

* `observeMessage_tracked`: what an observation does, by the record of its message alone
* `tracked_runFrames`: the table of the records over a whole run
* `vehicle_state_ordered`: what holds of every run of frames
-/

namespace AccessoryController.Mazda

open VehicleCore VehicleState
open Candidate

variable {Signal : Type → Type} [SignalSlots Signal]

/-! ### Watermarks and records -/

/-- The time of the newest frame of a message; a message without a frame has none. -/
def VehicleState.watermark (state : VehicleState Signal) (identifier : ℕ) :
    WithBot MonotonicTimestamp :=
  (state.messageHealthFor identifier).map MessageHealthState.lastFrameUs

/-- The record of a message, a blank one if it has none. -/
def VehicleState.recordFor (state : VehicleState Signal) (identifier : ℕ) : MessageHealthState :=
  (state.messageHealthFor identifier).getD {}

/-- A frame is newer than what the record holds. -/
def NewerThan (frame : RawCanFrame) (record : MessageHealthState) : Prop :=
  (!record.hasFrame || frame.timestampUs > record.lastFrameUs) = true

instance (frame : RawCanFrame) (record : MessageHealthState) : Decidable (NewerThan frame record) :=
  inferInstanceAs (Decidable (_ = _))

/-- The record after a newer frame. -/
def takenUp (validity : DecodeValidity) (frame : RawCanFrame) (record : MessageHealthState) :
    MessageHealthState :=
  if validity = .malformed then
    { copyFrame frame record with
      health := .faulted, faultTimestampUs := some frame.timestampUs }
  else
    { copyFrame frame record with
      health := .healthy, hasAccepted := true, lastAcceptedUs := frame.timestampUs
      faultTimestampUs := none }

theorem takenUp_named (validity : DecodeValidity) (frame : RawCanFrame)
    (record : MessageHealthState) :
    (takenUp validity frame record).identifier = frame.identifier ∧
      (takenUp validity frame record).hasFrame = true ∧
      (takenUp validity frame record).lastFrameUs = frame.timestampUs := by
  unfold takenUp
  split_ifs <;> exact ⟨rfl, rfl, rfl⟩

/-- The identifier of a record is overwritten by the frame that it takes up. -/
theorem takenUp_allocated (validity : DecodeValidity) (frame : RawCanFrame) (identifier : ℕ)
    (record : MessageHealthState) :
    takenUp validity frame { record with identifier } = takenUp validity frame record := rfl

variable {identifier : ℕ} {state : VehicleState Signal} {frame : RawCanFrame}

theorem watermark_of_record {record : MessageHealthState}
    (found : state.messageHealthFor identifier = some record) :
    state.watermark identifier = record.lastFrameUs := by
  rw [watermark, found]
  rfl

/-! ### The table of the records -/

/-- The records are of owned messages, one for each message, and a free record is blank. -/
structure Tracked (state : VehicleState Signal) : Prop where
  owned : ∀ index, (state.messageHealth index).hasFrame = true →
    (state.messageHealth index).identifier ∈ ownedIdentifiers
  distinct : ∀ index index', (state.messageHealth index).hasFrame = true →
    (state.messageHealth index').hasFrame = true →
    (state.messageHealth index).identifier = (state.messageHealth index').identifier →
    index = index'
  blank : ∀ index, (state.messageHealth index).hasFrame = false → state.messageHealth index = {}

/-- An empty table is tracked. -/
theorem tracked_of_empty (empty : ∀ index, state.messageHealth index = {}) : Tracked state := by
  refine ⟨?_, ?_, fun index _ => empty index⟩
  · intro index held
    rw [empty index] at held
    cases held
  · intro index index' held
    rw [empty index] at held
    cases held

theorem Tracked.congr {state' : VehicleState Signal} (tracked : Tracked state)
    (same : state'.messageHealth = state.messageHealth) : Tracked state' := by
  obtain ⟨owned, distinct, blank⟩ := tracked
  exact ⟨by rwa [same], by rwa [same], by rwa [same]⟩

/-- **There is room for every owned message**: the table has as many places as there are messages,
and the records are of different ones. -/
theorem Tracked.free (tracked : Tracked state) (owned : identifier ∈ ownedIdentifiers)
    (missing : state.recordOf identifier = none) :
    ∃ index, (state.messageHealth index).hasFrame = false := by
  by_contra full
  push Not at full
  have held : ∀ index, (state.messageHealth index).hasFrame = true := by
    intro index
    simpa using full index
  -- The places inject into the other owned messages, of which there is one too few.
  let others := ownedIdentifiers.toFinset.erase identifier
  have few : others.card = 6 := by
    rw [Finset.card_erase_of_mem (List.mem_toFinset.mpr owned)]
    rfl
  have maps : ∀ index ∈ (Finset.univ : Finset (Fin kTrackedMessageCapacity)),
      (state.messageHealth index).identifier ∈ others := by
    intro index _
    refine Finset.mem_erase.mpr ⟨?_, List.mem_toFinset.mpr (tracked.owned index (held index))⟩
    exact recordOf_none missing index (held index)
  obtain ⟨index, -, index', -, different, same⟩ :=
    Finset.exists_ne_map_eq_of_card_lt_of_maps_to
      (by rw [few, Finset.card_univ, Fintype.card_fin]; decide) maps
  exact different (tracked.distinct index index' (held index) (held index') same)

/-- The place found or allocated for an owned message holds its record. -/
theorem Tracked.findOrAllocate (tracked : Tracked state) (owned : identifier ∈ ownedIdentifiers) :
    ∃ state' index, state.findOrAllocateRecord identifier = some (state', index) ∧
      state'.messageHealth index = { state.recordFor identifier with identifier } ∧
      (∀ record, state'.setRecord index record = state.setRecord index record) ∧
      (∀ found, state.recordOf identifier = some found → found = index) ∧
      ∀ identifier', (state.messageHealth index).hasFrame = true →
        (state.messageHealth index).identifier = identifier' → identifier' = identifier := by
  unfold findOrAllocateRecord
  cases found : state.recordOf identifier with
  | some index =>
    obtain ⟨held, named⟩ := recordOf_some found
    refine ⟨state, index, rfl, ?_, fun _ => rfl, fun place h => (Option.some.inj h).symm, ?_⟩
    · rw [recordFor, messageHealthFor, found, ← named]
      rfl
    · rintro identifier' - rfl
      exact named
  | none =>
    obtain ⟨index, free⟩ := tracked.free owned found
    have some_free : ((List.finRange kTrackedMessageCapacity).find? fun index =>
        !(state.messageHealth index).hasFrame).isSome := by
      rw [List.find?_isSome]
      exact ⟨index, List.mem_finRange index, by simp [free]⟩
    obtain ⟨place, first⟩ := Option.isSome_iff_exists.mp some_free
    have unused : (state.messageHealth place).hasFrame = false := by
      simpa using List.find?_some first
    refine ⟨_, place, by rw [first]; rfl, ?_, fun _ => setRecord_setRecord ..,
      (fun _ h => by cases h), ?_⟩
    · rw [messageHealth_setRecord, Function.update_self, recordFor,
        messageHealthFor, found, tracked.blank place unused]
      rfl
    · intro identifier' held
      rw [unused] at held
      cases held

/-- What the observation of a frame does, by the record of its message. -/
structure Observed (state : VehicleState Signal) (frame : RawCanFrame)
    (validity : DecodeValidity) : Prop where
  newer : NewerThan frame (state.recordFor frame.identifier) →
    (state.observeMessage frame validity).2 = .accepted ∧
      (∃ index record, (state.observeMessage frame validity).1 = state.setRecord index record) ∧
      (state.observeMessage frame validity).1.messageHealthFor frame.identifier =
        some (takenUp validity frame (state.recordFor frame.identifier)) ∧
      (∀ identifier, identifier ≠ frame.identifier →
        (state.observeMessage frame validity).1.messageHealthFor identifier =
          state.messageHealthFor identifier) ∧
      Tracked (state.observeMessage frame validity).1
  late : ¬ NewerThan frame (state.recordFor frame.identifier) →
    (state.observeMessage frame validity).2 ≠ .accepted ∧
      (state.observeMessage frame validity).2 ≠ .capacityExceeded ∧
      (state.observeMessage frame validity).1 = state

/-- Writing the record of a message into its place keeps the table tracked. -/
theorem Tracked.setRecord (tracked : Tracked state) {index : Fin kTrackedMessageCapacity}
    {record : MessageHealthState} (owned : record.identifier ∈ ownedIdentifiers)
    (held : record.hasFrame = true)
    (place : ∀ found, state.recordOf record.identifier = some found → found = index) :
    Tracked (state.setRecord index record) := by
  -- A record elsewhere with the identifier of this one would be found before or after it.
  have unique : ∀ other, other ≠ index → (state.messageHealth other).hasFrame = true →
      (state.messageHealth other).identifier ≠ record.identifier := by
    intro other different full same
    cases found : state.recordOf record.identifier with
    | none => exact recordOf_none found other full same
    | some first =>
      obtain ⟨full', same'⟩ := recordOf_some found
      rw [place first found] at full' same'
      exact different (tracked.distinct other index full full' (same.trans same'.symm))
  refine ⟨?_, ?_, ?_⟩
  · intro other full
    rcases eq_or_ne other index with rfl | different
    · simpa using owned
    · simp only [messageHealth_setRecord, Function.update_of_ne different] at full ⊢
      exact tracked.owned other full
  · intro left right full full' same
    rcases eq_or_ne left index with rfl | left_ne <;> rcases eq_or_ne right left with rfl | right_ne
    · rfl
    · simp only [messageHealth_setRecord, Function.update_self,
        Function.update_of_ne right_ne] at full' same
      exact absurd same.symm (unique right right_ne full')
    · rfl
    · simp only [messageHealth_setRecord, Function.update_of_ne left_ne] at full same
      rcases eq_or_ne right index with rfl | right_index
      · rw [Function.update_self] at same
        exact absurd same (unique left left_ne full)
      · simp only [messageHealth_setRecord,
          Function.update_of_ne right_index] at full' same
        exact tracked.distinct left right full full' same
  · intro other free
    rcases eq_or_ne other index with rfl | different
    · simp [held] at free
    · simp only [messageHealth_setRecord, Function.update_of_ne different] at free ⊢
      exact tracked.blank other free

/-- **An observation** of an owned message, by its record alone: a newer frame is taken up into the
record, any other one leaves the state as it is, and there is always a place. -/
theorem observeMessage_tracked (tracked : Tracked state)
    (owned : frame.identifier ∈ ownedIdentifiers) {validity : DecodeValidity}
    (observed : validity ≠ .ignored) : Observed state frame validity := by
  obtain ⟨state', index, found, record_eq, set_eq, place, named⟩ := tracked.findOrAllocate owned
  have unfolded : state.observeMessage frame validity =
      if validity = .malformed then
        if NewerThan frame (state'.messageHealth index) then
          (state.setRecord index (takenUp .malformed frame (state'.messageHealth index)), .accepted)
        else if frame.timestampUs < (state'.messageHealth index).lastFrameUs then
          (state', .rejectedOlder)
        else if (state'.messageHealth index).health = .faulted ∧
            sameFrame frame (state'.messageHealth index) then (state', .idempotent)
        else (state', .rejectedConflict)
      else if NewerThan frame (state'.messageHealth index) then
        (state.setRecord index (takenUp .decoded frame (state'.messageHealth index)), .accepted)
      else if frame.timestampUs < (state'.messageHealth index).lastFrameUs then
        (state', .rejectedOlder)
      else if (state'.messageHealth index).health = .faulted then (state', .rejectedConflict)
      else if sameFrame frame (state'.messageHealth index) then (state', .idempotent)
      else (state', .rejectedConflict) := by
    rw [observeMessage, if_neg observed, found, ← set_eq, ← set_eq]
    rfl
  have newer_iff : NewerThan frame (state'.messageHealth index) ↔
      NewerThan frame (state.recordFor frame.identifier) := by
    rw [record_eq]
    rfl
  refine ⟨fun newer => ?_, fun late => ?_⟩
  · have written : state.observeMessage frame validity =
        (state.setRecord index (takenUp validity frame (state.recordFor frame.identifier)),
          .accepted) := by
      rw [unfolded, if_pos (newer_iff.mpr newer), if_pos (newer_iff.mpr newer), record_eq,
        takenUp_allocated, takenUp_allocated]
      cases validity with
      | ignored => exact absurd rfl observed
      | malformed => rfl
      | decoded => rfl
    obtain ⟨name, held, -⟩ :=
      takenUp_named validity frame (state.recordFor frame.identifier)
    rw [written]
    refine ⟨rfl, ⟨index, _, rfl⟩, ?_, ?_, ?_⟩
    · exact messageHealthFor_setRecord_self place held name
    · intro identifier other
      refine messageHealthFor_setRecord_of_ne ?_ (by rw [name]; exact other.symm)
      intro full same
      exact other (named identifier full same)
    · exact tracked.setRecord (by rwa [name]) held (by rwa [name])
  · have held : (state'.messageHealth index).hasFrame = true := by
      by_contra free
      exact late (newer_iff.mp (by simp [NewerThan, free]))
    have same := findOrAllocateRecord_held found held
    rw [unfolded, if_neg (mt newer_iff.mp late), if_neg (mt newer_iff.mp late), same]
    refine ⟨?_, ?_, ?_⟩
    · repeat' split
      all_goals intro impossible; cases impossible
    · repeat' split
      all_goals intro impossible; cases impossible
    · repeat' split
      all_goals rfl

/-! ### Taking frames up -/

namespace Candidate.Handling

variable {handling : Handling Signal} {frame : RawCanFrame} {state : VehicleState Signal}

/-- A frame that is not observed, or is not newer than the record of its message, leaves the state
as it is. -/
theorem run_late (tracked : Tracked state) (own : handling.Owned frame)
    (late : handling.observed ≠ .ignored →
      ¬ NewerThan frame (state.recordFor frame.identifier)) : handling.run frame state = state := by
  by_cases ignored : handling.observed = .ignored
  · simp [Handling.run, observeMessage, ignored]
  · obtain ⟨rejected, -, same⟩ :=
      (observeMessage_tracked tracked (own.owned ignored) ignored).late (late ignored)
    rw [Handling.run, if_neg (fun h => rejected h.2), same]

/-- What taking a newer frame up does to the records: only the record of its message changes. -/
structure TookUp (handling : Handling Signal) (frame : RawCanFrame)
    (state state' : VehicleState Signal) : Prop where
  record : state'.messageHealthFor frame.identifier =
    some (takenUp handling.observed frame (state.recordFor frame.identifier))
  others : ∀ identifier, identifier ≠ frame.identifier →
    state'.messageHealthFor identifier = state.messageHealthFor identifier
  tracked : Tracked state'

/-- A newer frame is taken up into the record of its message; one that did not decode changes
nothing else. -/
theorem run_newer (tracked : Tracked state) (own : handling.Owned frame)
    (observed : handling.observed ≠ .ignored)
    (newer : NewerThan frame (state.recordFor frame.identifier)) :
    handling.TookUp frame state (handling.run frame state) ∧
      if handling.observed = .decoded then
        ∃ index record, handling.run frame state =
          touch frame (handling.apply frame (state.setRecord index record))
      else ∃ index record, handling.run frame state = state.setRecord index record := by
  obtain ⟨accepted, ⟨index, record, written⟩, took, others, next⟩ :=
    (observeMessage_tracked tracked (own.owned observed) observed).newer newer
  by_cases decoded : handling.observed = .decoded
  · have run_eq : handling.run frame state =
        touch frame (handling.apply frame (state.observeMessage frame handling.observed).1) := by
      rw [Handling.run, if_pos ⟨decoded, accepted⟩]
    have records : (handling.run frame state).messageHealth =
        (state.observeMessage frame handling.observed).1.messageHealth := by
      rw [run_eq, messageHealth_touch, own.confined.records]
    have health := messageHealthFor_congr records
    refine ⟨⟨(health _).trans took, fun identifier other => (health _).trans (others _ other),
      next.congr records⟩, ?_⟩
    rw [if_pos decoded]
    exact ⟨index, record, by rw [run_eq, written]⟩
  · have run_eq : handling.run frame state =
        (state.observeMessage frame handling.observed).1 := by
      rw [Handling.run, if_neg (fun h => decoded h.1)]
    refine ⟨⟨by rw [run_eq]; exact took, fun identifier other => by rw [run_eq]; exact others _ other,
      by rw [run_eq]; exact next⟩, ?_⟩
    rw [if_neg decoded]
    exact ⟨index, record, by rw [run_eq, written]⟩

theorem run_cases (tracked : Tracked state) (own : handling.Owned frame) :
    (handling.observed ≠ .ignored ∧ NewerThan frame (state.recordFor frame.identifier)) ∨
      handling.run frame state = state :=
  or_iff_not_imp_left.mpr fun idle => run_late tracked own fun observed newer =>
    idle ⟨observed, newer⟩

theorem tracked_run (tracked : Tracked state) (own : handling.Owned frame) :
    Tracked (handling.run frame state) := by
  rcases run_cases tracked own with taken | late
  · exact (run_newer tracked own taken.1 taken.2).1.tracked
  · rwa [late]

end Candidate.Handling

/-! ### Whole runs -/

/-- The state after some frames have been decoded. -/
def runFrames (isValid : RawCanFrame → Bool) (state : VehicleState Signal)
    (frames : List RawCanFrame) : VehicleState Signal :=
  frames.foldl (fun state frame => (decode isValid frame state).1) state

variable {isValid : RawCanFrame → Bool} {state : VehicleState Signal}

theorem tracked_decode (tracked : Tracked state) (frame : RawCanFrame) :
    Tracked (decode isValid frame state).1 := by
  obtain ⟨handling, own, run⟩ := @decode_handles Signal _ isValid frame
  rw [run]
  exact Handling.tracked_run tracked own

/-- **The table of the records over a run** has one record for each owned message at most. -/
theorem tracked_runFrames (tracked : Tracked state) (frames : List RawCanFrame) :
    Tracked (runFrames isValid state frames) := by
  induction frames generalizing state with
  | nil => exact tracked
  | cons frame frames ih => exact ih (tracked_decode tracked frame)

/-- A frame at or before the watermark of its message is not newer than its record. -/
theorem not_newerThan_of_watermark
    (late : (frame.timestampUs : WithBot MonotonicTimestamp) ≤ state.watermark frame.identifier) :
    ¬ NewerThan frame (state.recordFor frame.identifier) := by
  cases found : state.messageHealthFor frame.identifier with
  | none =>
    rw [watermark, found] at late
    exact absurd late (WithBot.not_coe_le_bot _)
  | some record =>
    have held : record.hasFrame = true := by
      rw [messageHealthFor, Option.map_eq_some_iff] at found
      obtain ⟨index, place, rfl⟩ := found
      exact (recordOf_some place).1
    rw [watermark_of_record found] at late
    have bounded : frame.timestampUs ≤ record.lastFrameUs := WithBot.coe_le_coe.mp late
    rw [recordFor, found, NewerThan]
    simpa [held] using bounded

/-- A frame that is newer than its record is past the watermark of its message. -/
theorem watermark_lt_of_newerThan (newer : NewerThan frame (state.recordFor frame.identifier)) :
    state.watermark frame.identifier < (frame.timestampUs : WithBot MonotonicTimestamp) :=
  lt_of_not_ge fun late => not_newerThan_of_watermark late newer

/-- A frame that is late or malformed changes no signal. -/
theorem slot_decode (tracked : Tracked state) (frame : RawCanFrame)
    (unusable : (frame.timestampUs : WithBot MonotonicTimestamp) ≤ state.watermark frame.identifier ∨
      (decode isValid frame state).2 = .malformed) (slot : VehicleSlot) :
    (decode isValid frame state).1.slot slot = state.slot slot := by
  obtain ⟨handling, own, run⟩ := @decode_handles Signal _ isValid frame
  rw [run] at unusable ⊢
  rcases Handling.run_cases tracked own with ⟨observed, newer⟩ | late
  · have undecoded : handling.observed ≠ .decoded := by
      intro decoded
      rcases unusable with late | malformed
      · exact not_newerThan_of_watermark late newer
      · rw [own.answers observed, decoded] at malformed
        cases malformed
    have wrote := (Handling.run_newer tracked own observed newer).2
    rw [if_neg undecoded] at wrote
    obtain ⟨index, record, wrote⟩ := wrote
    rw [wrote]
    exact slot_setRecord state index record slot
  · rw [late]

theorem watermark_congr {state' : VehicleState Signal}
    (same : state'.messageHealthFor identifier = state.messageHealthFor identifier) :
    state'.watermark identifier = state.watermark identifier := by
  rw [watermark, watermark, same]

/-- A frame moves the watermark of its message only, and only forward. -/
theorem watermark_decode (tracked : Tracked state) (frame : RawCanFrame) (identifier : ℕ) :
    state.watermark identifier ≤ (decode isValid frame state).1.watermark identifier := by
  obtain ⟨handling, own, run⟩ := @decode_handles Signal _ isValid frame
  rw [run]
  rcases Handling.run_cases tracked own with taken | late
  · obtain ⟨took, -⟩ := Handling.run_newer tracked own taken.1 taken.2
    rcases eq_or_ne identifier frame.identifier with rfl | other
    · rw [watermark_of_record took.record, (takenUp_named _ _ _).2.2]
      exact (watermark_lt_of_newerThan taken.2).le
    · exact (watermark_congr (took.others identifier other)).ge
  · rw [late]

/-- A fault is cleared by a newer frame of its message that decoded, and by nothing else. -/
theorem fault_cleared (tracked : Tracked state)
    (faulted : state.messageStatus identifier = .faulted)
    (cleared : (decode isValid frame state).1.messageStatus identifier ≠ .faulted) :
    frame.identifier = identifier ∧ (decode isValid frame state).2 = .decoded ∧
      state.watermark identifier < (frame.timestampUs : WithBot MonotonicTimestamp) := by
  obtain ⟨handling, own, run⟩ := @decode_handles Signal _ isValid frame
  rw [run] at cleared ⊢
  rcases Handling.run_cases tracked own with taken | late
  · obtain ⟨took, -⟩ := Handling.run_newer tracked own taken.1 taken.2
    rcases eq_or_ne identifier frame.identifier with rfl | other
    · refine ⟨rfl, ?_, watermark_lt_of_newerThan taken.2⟩
      by_contra undecoded
      have malformed : handling.observed = .malformed := by
        have same := own.answers taken.1
        cases h : handling.observed with
        | ignored => exact absurd h taken.1
        | malformed => rfl
        | decoded => exact absurd (same.trans h) undecoded
      apply cleared
      simp [messageStatus, took.record, takenUp, malformed]
    · refine absurd ?_ cleared
      rw [messageStatus, took.others identifier other]
      exact faulted
  · rw [late] at cleared
    exact absurd faulted cleared

/-- A frame that comes twice in a row has been taken up or refused the first time. -/
theorem decode_twice (tracked : Tracked state) (frame : RawCanFrame) :
    (decode isValid frame (decode isValid frame state).1).1 = (decode isValid frame state).1 := by
  obtain ⟨handling, own, run⟩ := @decode_handles Signal _ isValid frame
  rw [run, run]
  rcases Handling.run_cases tracked own with taken | late
  · obtain ⟨took, -⟩ := Handling.run_newer tracked own taken.1 taken.2
    refine Handling.run_late took.tracked own fun _ => ?_
    -- The record now holds this very time.
    apply not_newerThan_of_watermark
    rw [watermark_of_record took.record, (takenUp_named _ _ _).2.2]
  · rw [late, late]

theorem watermark_runFrames (tracked : Tracked state) (frames : List RawCanFrame)
    (identifier : ℕ) :
    state.watermark identifier ≤ (runFrames isValid state frames).watermark identifier := by
  induction frames generalizing state with
  | nil => exact le_rfl
  | cons frame frames ih =>
    exact (watermark_decode tracked frame identifier).trans (ih (tracked_decode tracked frame))

/-- **The order of the frames**, in every state that a run of frames reaches from a state without
records. A late or malformed frame changes no signal; watermarks only grow, over any frames that
follow; a fault is cleared only by a newer frame that decodes; a repeated frame has no effect; and
no frame of an owned message is refused for want of a record. -/
theorem vehicle_state_ordered (isValid : RawCanFrame → Bool) (start : VehicleState Signal)
    (empty : ∀ index, start.messageHealth index = {}) (frames : List RawCanFrame) :
    let state := runFrames isValid start frames
    (∀ frame : RawCanFrame,
      (frame.timestampUs : WithBot MonotonicTimestamp) ≤ state.watermark frame.identifier ∨
          (decode isValid frame state).2 = .malformed →
        ∀ slot, (decode isValid frame state).1.slot slot = state.slot slot) ∧
    (∀ later identifier,
      state.watermark identifier ≤ (runFrames isValid state later).watermark identifier) ∧
    (∀ (frame : RawCanFrame) (identifier : ℕ), state.messageStatus identifier = .faulted →
      (decode isValid frame state).1.messageStatus identifier ≠ .faulted →
        frame.identifier = identifier ∧ (decode isValid frame state).2 = .decoded ∧
          state.watermark identifier < (frame.timestampUs : WithBot MonotonicTimestamp)) ∧
    (∀ frame, (decode isValid frame (decode isValid frame state).1).1 =
      (decode isValid frame state).1) ∧
    ∀ (frame : RawCanFrame) (validity : DecodeValidity), frame.identifier ∈ ownedIdentifiers →
      (state.observeMessage frame validity).2 ≠ .capacityExceeded := by
  intro state
  have tracked : Tracked state := tracked_runFrames (tracked_of_empty empty) frames
  refine ⟨slot_decode tracked, watermark_runFrames tracked, ?_, decode_twice tracked, ?_⟩
  · intro frame identifier faulted cleared
    exact fault_cleared tracked faulted cleared
  · intro frame validity owned
    by_cases ignored : validity = .ignored
    · simp [observeMessage, ignored]
    · have observed := observeMessage_tracked tracked owned ignored
      by_cases newer : NewerThan frame (state.recordFor frame.identifier)
      · rw [(observed.newer newer).1]
        intro rejected
        cases rejected
      · exact (observed.late newer).2.1

/-- An engine frame that decodes, and one whose engine speed is out of range. -/
def engineFrame (timestampUs : MonotonicTimestamp) (rpmHigh : UInt8) : RawCanFrame :=
  { timestampUs, identifier := kEngineDataId, dlc := kCandidateDlc,
    data := #v[rpmHigh, 0, 0, 0, 0, 0, 0, 0] }

theorem vehicle_state_ordered_engine :
    let state := runFrames (fun _ => true) ({} : VehicleState DocumentedSlot)
      [engineFrame 10 0x20, engineFrame 20 0xff]
    state.messageStatus kEngineDataId = .faulted ∧
      ∀ later identifier,
        state.watermark identifier ≤ (runFrames (fun _ => true) state later).watermark identifier :=
  ⟨by decide, (vehicle_state_ordered (fun _ => true) {} (fun _ => rfl)
    [engineFrame 10 0x20, engineFrame 20 0xff]).2.1⟩

end AccessoryController.Mazda
