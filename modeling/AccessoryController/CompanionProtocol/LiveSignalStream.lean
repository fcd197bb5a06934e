import AccessoryController.CompanionProtocol.LiveFrameLayout
import AccessoryController.CompanionProtocol.LiveStream
import AccessoryController.Library.Pacing

/-!
# The legacy live stream

The pacing of the live frames on one connection. A frame is attempted when its content differs from
that of the last accepted one, or a second after the last attempt, but never within 100 ms of the
last sample. Frames that the stack refuses are dropped, and counted all the same.

## Main definitions

* `LiveSignalStream`: the conditions and the pacing of a connection
* `offer`: the offer of one sampling pass
* `StreamCall`, `step`: the calls of a connection as the inputs of a machine
* `AttemptLaw`: the law of one attempt, given the moves before it

## Main results

* `agrees_step`: one call keeps the agreement of a stream with its history
* `attemptLaw_step`: an attempt of a stream that agrees with its history is lawful
* `live_frames`: the law of the frames and of their stream
-/

namespace AccessoryController.CompanionProtocol.LiveSignals

open BitLayout History VehicleCore VehicleSignals

structure Conditions where
  notificationsEnabled : Bool := false
  linkSecured : Bool := false
  attMtu : ℕ := 0
  deriving DecidableEq, Repr

def Conditions.hold (c : Conditions) : Bool :=
  c.notificationsEnabled && c.linkSecured && decide (kMinLiveSignalsAttMtu ≤ c.attMtu)

structure Pacing where
  nextSequence : UInt8 := 0
  accepted : Option LiveSignalContent := none
  lastSample : Option LiveStreamClock := none
  lastAttempt : Option LiveStreamClock := none
  deriving DecidableEq

/-- The sequence starts again, and the next frame is sent whatever it holds; the rate cap stays. -/
def Pacing.restart (p : Pacing) : Pacing := { p with nextSequence := 0, accepted := none }

/-- A clock that stepped back counts as due. -/
def Pacing.sampleDue (p : Pacing) (now : LiveStreamClock) : Prop :=
  elapsed p.lastSample kLiveFrameInterval now

def Pacing.frameDue (p : Pacing) (now : LiveStreamClock) (content : LiveSignalContent) : Prop :=
  p.accepted ≠ some content ∨ elapsed p.lastAttempt kLiveHeartbeatInterval now

instance (p : Pacing) (now : LiveStreamClock) : Decidable (p.sampleDue now) :=
  inferInstanceAs (Decidable (elapsed _ _ _))

instance (p : Pacing) (now : LiveStreamClock) (content : LiveSignalContent) :
    Decidable (p.frameDue now content) :=
  inferInstanceAs (Decidable (_ ∨ _))

structure LiveSignalStream where
  conditions : Conditions := {}
  pacing : Pacing := {}
  deriving DecidableEq

namespace LiveSignalStream

def streaming (s : LiveSignalStream) : Bool := s.conditions.hold

/-- Changes the conditions; a stream that begins to stream restarts. -/
def updateConditions (s : LiveSignalStream) (update : Conditions → Conditions) :
    LiveSignalStream :=
  let conditions := update s.conditions
  if !s.conditions.hold && conditions.hold then ⟨conditions, s.pacing.restart⟩
  else { s with conditions }

def setNotificationsEnabled (s : LiveSignalStream) (enabled : Bool) : LiveSignalStream :=
  s.updateConditions fun conditions => { conditions with notificationsEnabled := enabled }

def setLinkSecured (s : LiveSignalStream) (secured : Bool) : LiveSignalStream :=
  s.updateConditions fun conditions => { conditions with linkSecured := secured }

def setAttMtu (s : LiveSignalStream) (mtu : ℕ) : LiveSignalStream :=
  s.updateConditions fun conditions => { conditions with attMtu := mtu }

/-- Clears the conditions and forgets the rate history. -/
def resetConnection (_ : LiveSignalStream) : LiveSignalStream := {}

/-- Offers one sampling pass. Gives the frame that was attempted, if any; `tryQueue` is the answer
of the sink. -/
def offer (s : LiveSignalStream) (now : LiveStreamClock) (content : LiveSignalContent)
    (tryQueue : LiveFrame → Bool) : LiveSignalStream × Option LiveFrame :=
  if !s.streaming ∨ ¬s.pacing.sampleDue now then (s, none)
  else
    let pacing := { s.pacing with lastSample := some now }
    if ¬pacing.frameDue now content then ({ s with pacing }, none)
    else
      let frame := content.frame pacing.nextSequence
      ({ s with
          pacing :=
            { pacing with
              lastAttempt := some now
              nextSequence := pacing.nextSequence + 1
              accepted := if tryQueue frame then some content else pacing.accepted } },
        some frame)

end LiveSignalStream

/-! ### The calls of a connection -/

inductive StreamCall
  | setNotificationsEnabled (enabled : Bool)
  | setLinkSecured (secured : Bool)
  | setAttMtu (mtu : ℕ)
  | resetConnection
  | offer (now : LiveStreamClock) (content : LiveSignalContent) (tryQueue : LiveFrame → Bool)

/-- One call, with the frame that it attempted. -/
def LiveSignalStream.step (s : LiveSignalStream) : StreamCall → LiveSignalStream × Option LiveFrame
  | .setNotificationsEnabled enabled => (s.setNotificationsEnabled enabled, none)
  | .setLinkSecured secured => (s.setLinkSecured secured, none)
  | .setAttMtu mtu => (s.setAttMtu mtu, none)
  | .resetConnection => (s.resetConnection, none)
  | .offer now content tryQueue => s.offer now content tryQueue

/-- The time of an offer. -/
def StreamCall.time : StreamCall → Option LiveStreamClock
  | .offer now _ _ => some now
  | _ => none

/-- A call of a run, with the stream that it met. -/
abbrev Move := LiveSignalStream × StreamCall

/-- The frame that a move attempted. -/
def attempted (move : Move) : Option LiveFrame := (move.1.step move.2).2

def Attempts (move : Move) : Prop := (attempted move).isSome

/-- The move opens or closes a connection. -/
def Resets : Move → Prop
  | (_, .resetConnection) => True
  | _ => False

/-- The move opens or closes a connection, or the stream begins to stream on it. -/
def Restarts (move : Move) : Prop :=
  Resets move ∨ move.1.streaming = false ∧ (move.1.step move.2).1.streaming = true

instance : DecidablePred Attempts := fun _ => inferInstanceAs (Decidable (_ = true))

instance : DecidablePred Resets := fun move => by
  unfold Resets
  split <;> infer_instance

instance : DecidablePred Restarts := fun _ => inferInstanceAs (Decidable (_ ∨ _))

/-- The number of attempts since the last restart. -/
def attemptsSince (history : List Move) : ℕ :=
  (sinceLast Restarts history).countP fun move => decide (Attempts move)

/-- **The law of one attempt**, given the moves before it. -/
structure AttemptLaw (before : List Move) (now : LiveStreamClock) (frame : LiveFrame) : Prop where
  /-- Sequence numbers count the attempts since the last restart, modulo 256. -/
  sequence : BitLayout.read frame (inByte kSequenceOffset 0 8) = attemptsSince before % 2 ^ 8
  /-- Attempts on one connection are at least the sampling period apart. -/
  spaced : ∀ earlier ∈ sinceLast Resets before, Attempts earlier →
    ∀ time, earlier.2.time = some time → time + kLiveFrameInterval ≤ now

/-- A stream agrees with its history. -/
structure Agrees (s : LiveSignalStream) (history : List Move) : Prop where
  sequence : s.pacing.nextSequence = UInt8.ofNat (attemptsSince history)
  paced : Pacing.Agrees (fun move => move.2.time) Attempts Resets s.pacing.lastSample history

/-! ### One call -/

/-- **The effect of a call**: a reset, a restart, no effect on the pacing, a sample without an
attempt, or an attempt. -/
inductive Effect (s : LiveSignalStream) (call : StreamCall) :
    LiveSignalStream × Option LiveFrame → Prop
  | reset (resets : Resets (s, call)) : Effect s call ({}, none)
  | restart (conditions : Conditions) (going : ¬Resets (s, call)) (starts : Restarts (s, call)) :
      Effect s call (⟨conditions, s.pacing.restart⟩, none)
  | idle (conditions : Conditions) (going : ¬Restarts (s, call)) :
      Effect s call (⟨conditions, s.pacing⟩, none)
  | quiet {now : LiveStreamClock} (at_now : call.time = some now) (going : ¬Restarts (s, call)) :
      Effect s call (⟨s.conditions, { s.pacing with lastSample := some now }⟩, none)
  | attempted {now : LiveStreamClock} (at_now : call.time = some now)
      (going : ¬Restarts (s, call)) (due : s.pacing.sampleDue now) (content : LiveSignalContent)
      (accepted : Option LiveSignalContent) :
      Effect s call
        (⟨s.conditions,
          { nextSequence := s.pacing.nextSequence + 1
            accepted
            lastSample := some now
            lastAttempt := some now }⟩,
          some (content.frame s.pacing.nextSequence))

variable {s : LiveSignalStream}

theorem effect_updateConditions {call : StreamCall} {update : Conditions → Conditions}
    (going : ¬Resets (s, call)) (updates : s.step call = (s.updateConditions update, none)) :
    Effect s call (s.updateConditions update, none) := by
  have restarts : Restarts (s, call) ↔ s.conditions.hold = false ∧
      (s.updateConditions update).conditions.hold = true := by
    unfold Restarts
    rw [or_iff_right going, updates]
    rfl
  unfold LiveSignalStream.updateConditions at restarts ⊢
  dsimp only at restarts ⊢
  split
  next starts =>
    rw [if_pos starts] at restarts
    refine .restart _ going (restarts.mpr ?_)
    simpa using starts
  next steady =>
    rw [if_neg steady] at restarts
    refine .idle _ (mt restarts.mp ?_)
    simpa using steady

/-- **Every call has one of the effects.** -/
theorem effect_step (s : LiveSignalStream) (call : StreamCall) : Effect s call (s.step call) := by
  cases call with
  | setNotificationsEnabled enabled => exact effect_updateConditions id rfl
  | setLinkSecured secured => exact effect_updateConditions id rfl
  | setAttMtu mtu => exact effect_updateConditions id rfl
  | resetConnection => exact .reset trivial
  | offer now content tryQueue =>
    have offers : s.step (.offer now content tryQueue) = s.offer now content tryQueue := rfl
    unfold LiveSignalStream.offer at offers
    have conditions : (s.step (.offer now content tryQueue)).1.conditions = s.conditions := by
      rw [offers]
      split
      · rfl
      · dsimp only
        split <;> rfl
    have going : ¬Restarts (s, .offer now content tryQueue) := by
      rintro (resets | ⟨before, after⟩)
      · exact resets
      · unfold LiveSignalStream.streaming at before after
        rw [conditions, before] at after
        cases after
    rw [offers]
    split
    next closed => exact .idle s.conditions going
    next opens =>
      dsimp only
      split
      · exact .quiet rfl going
      · exact .attempted rfl going (not_not.mp (not_or.mp opens).2) content _

/-- The number of attempts after one more move. -/
theorem attemptsSince_snoc (history : List Move) (move : Move) :
    attemptsSince (history ++ [move]) =
      if Restarts move then 0
      else attemptsSince history + if Attempts move then 1 else 0 := by
  unfold attemptsSince
  rw [sinceLast_snoc]
  split
  · rfl
  · rw [List.countP_append, List.countP_singleton]
    simp only [decide_eq_true_eq]

/-- **One call keeps the agreement.** -/
theorem agrees_step {history : List Move} (agrees : Agrees s history) (call : StreamCall)
    (monotone : ∀ now, call.time = some now →
      ∀ t ∈ history.filterMap fun move => move.2.time, t ≤ now) :
    Agrees (s.step call).1 (history ++ [(s, call)]) := by
  have effect := effect_step s call
  have attempts : Attempts (s, call) ↔ (s.step call).2.isSome = true := Iff.rfl
  generalize s.step call = result at effect attempts
  have counted := attemptsSince_snoc history (s, call)
  cases effect with
  | reset resets =>
    rw [if_pos (show Restarts (s, call) from Or.inl resets)] at counted
    refine ⟨?_, agrees.paced.snoc (.reset resets) monotone⟩
    rw [counted]
    rfl
  | restart conditions going starts =>
    rw [if_pos starts] at counted
    refine ⟨?_, agrees.paced.snoc (.idle going ?_) monotone⟩
    · rw [counted]
      rfl
    · rw [attempts]
      exact Bool.false_ne_true
  | idle conditions going =>
    have still : ¬Attempts (s, call) := by
      rw [attempts]
      exact Bool.false_ne_true
    rw [if_neg going, if_neg still] at counted
    refine ⟨?_, agrees.paced.snoc (.idle (fun resets => going (Or.inl resets)) still) monotone⟩
    rw [counted]
    exact agrees.sequence
  | quiet at_now going =>
    have still : ¬Attempts (s, call) := by
      rw [attempts]
      exact Bool.false_ne_true
    rw [if_neg going, if_neg still] at counted
    refine ⟨?_, agrees.paced.snoc (.sample (fun resets => going (Or.inl resets)) at_now) monotone⟩
    rw [counted]
    exact agrees.sequence
  | attempted at_now going due content accepted =>
    rw [if_neg going, if_pos (attempts.mpr rfl)] at counted
    refine ⟨?_, agrees.paced.snoc (.sample (fun resets => going (Or.inl resets)) at_now) monotone⟩
    rw [counted, UInt8.ofNat_add, ← agrees.sequence]
    rfl

/-- **An attempt of a stream that agrees with its history is lawful.** -/
theorem attemptLaw_step {history : List Move} (agrees : Agrees s history) {call : StreamCall}
    (monotone : ∀ now, call.time = some now →
      ∀ t ∈ history.filterMap fun move => move.2.time, t ≤ now) {frame : LiveFrame}
    (attempt : attempted (s, call) = some frame) :
    ∃ now, call.time = some now ∧ AttemptLaw history now frame := by
  have effect := effect_step s call
  unfold attempted at attempt
  generalize s.step call = result at effect attempt
  cases effect with
  | attempted at_now going due content accepted =>
    rename_i now
    obtain rfl := Option.some.inj attempt
    refine ⟨now, at_now, ?_, agrees.paced.spaced ?_ (monotone now at_now)⟩
    · rw [read_sequence, agrees.sequence, UInt8.toNat_ofNat']
    · intro l last
      unfold Pacing.sampleDue elapsed at due
      rw [last] at due
      exact due
  | reset => cases attempt
  | restart => cases attempt
  | idle => cases attempt
  | quiet => cases attempt

/-! ### Runs -/

theorem agrees_start : Agrees {} [] where
  sequence := rfl
  paced := Pacing.Agrees.start

/-- The attempts of a run whose clock does not run backwards are lawful. -/
theorem lawful_moves (calls : List StreamCall)
    (monotone : (calls.filterMap StreamCall.time).Pairwise (· ≤ ·)) :
    Lawful (fun before move => ∀ frame, attempted move = some frame →
      ∃ now, move.2.time = some now ∧ AttemptLaw before now frame)
      (Machine.moves LiveSignalStream.step {} calls) := by
  have clock : ((Machine.moves LiveSignalStream.step {} calls).filterMap
      fun move => move.2.time).Pairwise (· ≤ ·) := by
    rw [← Machine.map_snd_moves LiveSignalStream.step {} calls, List.filterMap_map] at monotone
    exact monotone
  -- the stream of an admissible history agrees with it
  refine (Machine.invariant_moves (P := fun s history =>
    (history.filterMap fun move : Move => move.2.time).Pairwise (· ≤ ·) →
      Agrees s history ∧ Lawful _ history) (fun _ => ⟨agrees_start, lawful_nil _⟩) ?_
    calls clock).2
  intro s history call ih clock
  rw [List.filterMap_append, List.pairwise_append] at clock
  obtain ⟨agrees, lawful⟩ := ih clock.1
  have last : ∀ now, call.time = some now →
      ∀ t ∈ history.filterMap fun move => move.2.time, t ≤ now := by
    intro now at_now t mem
    refine clock.2.2 t mem now ?_
    exact List.mem_filterMap.mpr ⟨(s, call), List.mem_cons_self, at_now⟩
  refine ⟨agrees_step agrees call last, lawful_snoc.mpr ⟨lawful, fun frame attempt => ?_⟩⟩
  exact attemptLaw_step agrees last attempt

/-- **The live frames.** The fields tile the frame. It decodes to what each slot reports of the
answer to its own read, and no bit of a slot depends on another answer; a field whose status has no
value-present bit is zero. On a clock that does not run backwards, the attempts of a connection are
a sampling period apart, with consecutive sequence numbers since the last restart. -/
theorem live_frames (catalog : SignalCatalogView) :
    Tiles kLiveFrameBytes frameFields ∧
    (∀ (read : Answers) (telemetryStarted : Bool) (sequence : UInt8),
      let frame := ((LiveSignalSampler.create catalog).sample read telemetryStarted).frame sequence
      BitLayout.read frame (inByte kLayoutVersionOffset 0 8) = 2 ∧
        BitLayout.read frame (inByte kSequenceOffset 0 8) = sequence.toNat ∧
        BitLayout.read frame (inByte kFlagsOffset 0 8) = telemetryStarted.toNat ∧
        ∀ index slot, liveSignalSlots[index]? = some slot →
          let o := outcomeOf slot (resolve catalog slot) (read index)
          BitLayout.read frame (fieldPositions slot) = o.field.getD 0 ∧
            BitLayout.read frame (statusPositions index) = o.status ∧
            (BitLayout.read frame (statusPositions index) < kValuePresentBit.toNat →
              BitLayout.read frame (fieldPositions slot) = 0)) ∧
    (∀ (read read' : Answers) (telemetryStarted telemetryStarted' : Bool)
      (sequence sequence' : UInt8) (index : ℕ) (slot : LiveSignalSlot),
      liveSignalSlots[index]? = some slot → read index = read' index →
      ∀ q ∈ slotPositions index slot,
        bit (((LiveSignalSampler.create catalog).sample read telemetryStarted).frame sequence) q =
          bit (((LiveSignalSampler.create catalog).sample read' telemetryStarted').frame sequence')
            q) ∧
    ∀ calls : List StreamCall, (calls.filterMap StreamCall.time).Pairwise (· ≤ ·) →
      Lawful (fun before move => ∀ frame, attempted move = some frame →
        ∃ now, move.2.time = some now ∧ AttemptLaw before now frame)
        (Machine.moves LiveSignalStream.step {} calls) := by
  refine ⟨frameFields_tile, fun read telemetryStarted sequence => ?_,
    fun read read' _ _ _ _ index slot there same q mem => bit_sample_congr catalog there same mem,
    lawful_moves⟩
  obtain ⟨version, counted, flags, -⟩ := read_header catalog read telemetryStarted sequence
  refine ⟨version, counted, flags, fun index slot there => ?_⟩
  obtain ⟨field, status⟩ := read_sample catalog read telemetryStarted sequence there
  refine ⟨field, status, fun absent => ?_⟩
  rw [status] at absent
  rw [field]
  -- a status below the value-present bit reports no value
  unfold SlotOutcome.status at absent
  cases hfield : (outcomeOf slot (resolve catalog slot) (read index)).field with
  | none => rfl
  | some v =>
    rw [hfield] at absent
    exact absurd absent (Nat.not_lt.mpr (Nat.le_add_left _ _))

/-- A catalogue of the hazard request alone. -/
def hazardCatalog : SignalCatalogView :=
  [{ id := ⟨1⟩, key := ascii "vehicle.hazard_request", type := .boolean,
     capabilities := { read := true } }]

/-- A provider that retains the hazard request of a bus that has gone. -/
def retainedHazard : Answers := fun _ _ =>
  { status := .ok, value := some { availability := .unavailable, value := some (.boolean true) } }

/-- The calls that open a connection. -/
def openConnection : List StreamCall :=
  [.setNotificationsEnabled true, .setLinkSecured true, .setAttMtu kMinLiveSignalsAttMtu]

/-- The retained request in a frame, and two attempts that are a sampling period apart. -/
theorem live_frames_hazard :
    BitLayout.read (((LiveSignalSampler.create hazardCatalog).sample retainedHazard true).frame 7)
        (fieldPositions (liveSignalSlots.getD 6 {})) = 1 ∧
      ∀ before move after, Machine.moves LiveSignalStream.step {}
          (openConnection ++ [.offer 0 {} fun _ => false, .offer 100 {} fun _ => true]) =
            before ++ move :: after →
        ∀ frame, attempted move = some frame →
          ∃ now, move.2.time = some now ∧ AttemptLaw before now frame := by
  obtain ⟨-, reads, -, paced⟩ := live_frames hazardCatalog
  constructor
  · rw [((reads retainedHazard true 7).2.2.2 6 (liveSignalSlots.getD 6 {}) rfl).1]
    decide +kernel
  · exact paced _ (by decide)

/-- A status that is not usable comes with a value that was retained, and the attempts of two
connections may be closer than the sampling period. -/
theorem retained_value_sent :
    (¬∀ (catalog : SignalCatalogView) (read : Answers) (telemetryStarted : Bool)
      (sequence : UInt8) (index : ℕ) (slot : LiveSignalSlot),
      liveSignalSlots[index]? = some slot →
      let frame := ((LiveSignalSampler.create catalog).sample read telemetryStarted).frame sequence
      BitLayout.read frame (statusPositions index) % 8 = SignalStatusCode.unavailable.value →
        BitLayout.read frame (fieldPositions slot) = 0) ∧
    ¬∀ calls : List StreamCall, (calls.filterMap StreamCall.time).Pairwise (· ≤ ·) →
      (((Machine.moves LiveSignalStream.step {} calls).filter fun move =>
        (attempted move).isSome).filterMap fun move => move.2.time).Pairwise
          (· + kLiveFrameInterval ≤ ·) := by
  constructor
  · intro zero
    have sent := zero hazardCatalog retainedHazard true 0 6 _ rfl
    revert sent
    decide +kernel
  · intro spaced
    have attempts := spaced (openConnection ++ .offer 0 {} (fun _ => true) :: .resetConnection ::
      openConnection ++ [.offer 1 {} fun _ => true]) (by decide)
    revert attempts
    decide +kernel

end AccessoryController.CompanionProtocol.LiveSignals
