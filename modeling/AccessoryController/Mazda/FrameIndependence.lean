import AccessoryController.Library.Independence
import AccessoryController.Mazda.MessageOrdering

/-!
# Frames of different messages

The signals and the record of a message are the components that its frames read and write. Frames
of different messages therefore commute, although all of them are decoded into one state and their
records share one table, whose places depend on the order of the frames.

## Main definitions

* `Component`: a signal, or the record of a message
* `componentsOf`: the components of a message

## Main results

* `decode_supported`: decoding a frame reads and writes the components of its message
* `frames_commute`: the order of frames of different messages does not show
-/

namespace AccessoryController.Mazda

open VehicleCore VehicleState
open Candidate
open Independence (Supported)

variable {Signal : Type → Type} [SignalSlots Signal]

/-- A part of the vehicle state that belongs to one message. -/
inductive Component
  | slot (signal : VehicleSlot)
  | record (identifier : ℕ)

namespace Component

def Value (Signal : Type → Type) : Component → Type
  | .slot signal => Signal signal.Value
  | .record _ => Option MessageHealthState

/-- The message of a component. -/
def identifier : Component → ℕ
  | .slot signal => signal.identifier
  | .record identifier => identifier

def get : (component : Component) → VehicleState Signal → component.Value Signal
  | .slot signal, state => state.slot signal
  | .record identifier, state => state.messageHealthFor identifier

end Component

/-- The components of a message. -/
def componentsOf (identifier : ℕ) : Set Component :=
  {component | component.identifier = identifier}

theorem disjoint_componentsOf {identifier identifier' : ℕ} (distinct : identifier ≠ identifier') :
    Disjoint (componentsOf identifier) (componentsOf identifier') :=
  Set.disjoint_left.mpr fun _ own own' => distinct (own.symm.trans own')

/-! ### The support of a frame -/

section Support

variable {handling : Handling Signal} {frame : RawCanFrame} {state state' : VehicleState Signal}

/-- A frame that is taken up leaves the slots of the other messages. -/
theorem slot_run_other (tracked : Tracked state) (own : handling.Owned frame)
    {slot : VehicleSlot} (other : slot.identifier ≠ frame.identifier) :
    (handling.run frame state).slot slot = state.slot slot := by
  by_cases taken : handling.observed ≠ .ignored ∧ NewerThan frame (state.recordFor frame.identifier)
  · have wrote := (Handling.run_newer tracked own taken.1 taken.2).2
    split at wrote
    · obtain ⟨index, record, wrote⟩ := wrote
      rw [wrote, slot_touch, own.confined.frame _ _ slot other, slot_setRecord]
    · obtain ⟨index, record, wrote⟩ := wrote
      rw [wrote, slot_setRecord]
  · rw [Handling.run_late tracked own fun observed newer => taken ⟨observed, newer⟩]

/-- A frame that is taken up leaves the records of the other messages. -/
theorem record_run_other (tracked : Tracked state) (own : handling.Owned frame) {identifier : ℕ}
    (other : identifier ≠ frame.identifier) :
    (handling.run frame state).messageHealthFor identifier =
      state.messageHealthFor identifier := by
  by_cases taken : handling.observed ≠ .ignored ∧ NewerThan frame (state.recordFor frame.identifier)
  · exact (Handling.run_newer tracked own taken.1 taken.2).1.others identifier other
  · rw [Handling.run_late tracked own fun observed newer => taken ⟨observed, newer⟩]

/-- What a frame does to the components of its message depends on these components alone. -/
theorem run_reads (tracked : Tracked state) (tracked' : Tracked state')
    (own : handling.Owned frame)
    (record : state.messageHealthFor frame.identifier = state'.messageHealthFor frame.identifier)
    (slots : ∀ slot : VehicleSlot, slot.identifier = frame.identifier →
      state.slot slot = state'.slot slot) :
    (handling.run frame state).messageHealthFor frame.identifier =
        (handling.run frame state').messageHealthFor frame.identifier ∧
      ∀ slot : VehicleSlot, slot.identifier = frame.identifier →
        (handling.run frame state).slot slot = (handling.run frame state').slot slot := by
  have same : state.recordFor frame.identifier = state'.recordFor frame.identifier := by
    rw [recordFor, recordFor, record]
  by_cases taken : handling.observed ≠ .ignored ∧ NewerThan frame (state.recordFor frame.identifier)
  · obtain ⟨observed, newer⟩ := taken
    obtain ⟨took, wrote⟩ := Handling.run_newer tracked own observed newer
    obtain ⟨took', wrote'⟩ := Handling.run_newer tracked' own observed (same ▸ newer)
    refine ⟨by rw [took.record, took'.record, same], fun slot mine => ?_⟩
    by_cases decoded : handling.observed = .decoded
    · rw [if_pos decoded] at wrote wrote'
      obtain ⟨index, held, wrote⟩ := wrote
      obtain ⟨index', held', wrote'⟩ := wrote'
      rw [wrote, wrote', slot_touch, slot_touch]
      refine own.confined.reads frame _ _ (fun slot mine => ?_) slot mine
      rw [slot_setRecord, slot_setRecord, slots slot mine]
    · rw [if_neg decoded] at wrote wrote'
      obtain ⟨index, held, wrote⟩ := wrote
      obtain ⟨index', held', wrote'⟩ := wrote'
      rw [wrote, wrote', slot_setRecord, slot_setRecord, slots slot mine]
  · rw [Handling.run_late tracked own fun observed newer => taken ⟨observed, newer⟩,
      Handling.run_late tracked' own fun observed newer => taken ⟨observed, same ▸ newer⟩]
    exact ⟨record, slots⟩

/-- **Decoding a frame** reads and writes the components of its message only. -/
theorem decode_supported (isValid : RawCanFrame → Bool) (frame : RawCanFrame) :
    Supported Tracked (@Component.get Signal _) (componentsOf frame.identifier)
      fun state => (decode isValid frame state).1 := by
  obtain ⟨handling, own, run⟩ := @decode_handles Signal _ isValid frame
  simp only [run]
  refine ⟨fun state tracked => Handling.tracked_run tracked own, ?_, ?_⟩
  · rintro state tracked (slot | identifier) other
    · exact slot_run_other tracked own other
    · exact record_run_other tracked own other
  · intro state state' tracked tracked' same component mine
    obtain ⟨record, slots⟩ := run_reads tracked tracked' own (same (.record frame.identifier) rfl)
      fun slot mine => same (.slot slot) mine
    cases component with
    | slot slot => exact slots slot mine
    | record identifier =>
      obtain rfl : identifier = frame.identifier := mine
      exact record

end Support

/-- **Frames of different messages commute**: whatever the signals hold, and over every table of
records that a run of frames leaves, two such frames give the same slots, readings, records and
watermarks in either order. A frame changes no signal of another message. -/
theorem frames_commute (isValid : RawCanFrame → Bool) {start state : VehicleState Signal}
    (empty : ∀ index, start.messageHealth index = {}) (frames : List RawCanFrame)
    (reached : state.messageHealth = (runFrames isValid start frames).messageHealth)
    (frame frame' : RawCanFrame) (distinct : frame.identifier ≠ frame'.identifier) :
    let first := (decode isValid frame' (decode isValid frame state).1).1
    let second := (decode isValid frame (decode isValid frame' state).1).1
    (∀ slot, first.slot slot = second.slot slot) ∧
    (∀ slot nowUs validation transport,
      first.readingAt (first.slot slot) slot.identifier nowUs validation transport =
        second.readingAt (second.slot slot) slot.identifier nowUs validation transport) ∧
    (∀ identifier, first.messageHealthFor identifier = second.messageHealthFor identifier ∧
      first.watermark identifier = second.watermark identifier) ∧
    ∀ slot : VehicleSlot, slot.identifier ≠ frame.identifier →
      (decode isValid frame state).1.slot slot = state.slot slot := by
  intro first second
  have tracked : Tracked state :=
    (tracked_runFrames (tracked_of_empty empty) frames).congr reached
  have same : ∀ component : Component, component.get first = component.get second :=
    (decode_supported isValid frame').comm (decode_supported isValid frame)
      (disjoint_componentsOf distinct.symm) tracked
  have slots : ∀ slot, first.slot slot = second.slot slot := fun slot => same (.slot slot)
  have records : ∀ identifier,
      first.messageHealthFor identifier = second.messageHealthFor identifier :=
    fun identifier => same (.record identifier)
  refine ⟨slots, ?_, fun identifier => ⟨records identifier, watermark_congr (records identifier)⟩,
    fun slot other => (decode_supported isValid frame).frame state tracked (.slot slot) other⟩
  intro slot nowUs validation transport
  rw [readingAt, readingAt, messageStatus,
    messageStatus, records, slots]

/-- A frame of the brake pedal, pressed. -/
def brakeFrame (timestampUs : MonotonicTimestamp) : RawCanFrame :=
  { timestampUs, identifier := kBrakePedalId, dlc := kCandidateDlc,
    data := #v[0x10, 0, 0, 0, 0, 0, 0, 0] }

theorem frames_commute_engine_brake :
    ((decode (fun _ => true) (brakeFrame 5)
        (decode (fun _ => true) (engineFrame 7 0x20) ({} : VehicleState DocumentedSlot)).1).1.slot
        .brakePressed =
      (decode (fun _ => true) (engineFrame 7 0x20)
        (decode (fun _ => true) (brakeFrame 5) ({} : VehicleState DocumentedSlot)).1).1.slot
        .brakePressed) :=
  (frames_commute (fun _ => true) (fun _ => rfl) [] rfl (engineFrame 7 0x20) (brakeFrame 5)
    (by decide)).1 .brakePressed

end AccessoryController.Mazda
