import AccessoryController.CompanionProtocol.CatalogPages
import AccessoryController.CompanionProtocol.LivePass
import AccessoryController.Library.History

/-!
# The acceptance memory of the live stream

The history of a run determines what the stream remembers: the memory of a handle is its record
in the latest accepted packet since the last restart, the sequence number counts the attempts
since then, and the gates are what the connection was last told. The law of the attempts follows
for every run whose clock does not run backwards.

## Main definitions

* `acceptedRecord`: the record of a handle that a move got accepted
* `Agrees`: a stream agrees with its history
* `AttemptLaw`: the law of one attempt, given the moves before it

## Main results

* `agrees_step`: one call keeps the agreement
* `attemptLaw_step`: an attempt of a stream that agrees with its history is lawful
* `live_stream_acceptance_memory`: the memory and the law of every run
-/

namespace AccessoryController.CompanionProtocol

open History VehicleSignals

namespace ExtensibleLiveSignalStream

variable (catalog : SignalCatalogExport) (provider : SignalCatalogView)
  {s : ExtensibleLiveSignalStream} {call : StreamCall} {history : List Move}

/-! ### What a history says -/

/-- The time of an offer. -/
def StreamCall.time : StreamCall → Option LiveStreamClock
  | .offer o => some o.now
  | _ => none

/-- The time of a move that is an offer. -/
def offerTime (move : Move) : Option LiveStreamClock := move.2.time

def notificationsCall : Move → Option Bool
  | (_, .setNotificationsEnabled enabled) => some enabled
  | _ => none

def securedCall : Move → Option Bool
  | (_, .setLinkSecured secured) => some secured
  | _ => none

def tokenCall : Move → Option UInt32
  | (_, .setCatalogToken token) => some token
  | _ => none

def pausedCall : Move → Option Bool
  | (_, .setConfigPaused paused) => some paused
  | _ => none

/-- The move resets the connection. -/
def Resets : Move → Prop
  | (_, .resetConnection) => True
  | _ => False

/-- The stream starts again on the move. -/
def Restarts (move : Move) : Prop := move.1.restarts catalog provider move.2

instance : DecidablePred Resets := fun move => by
  unfold Resets
  split <;> infer_instance

instance : DecidablePred (Restarts catalog provider) := fun move => by
  unfold Restarts
  infer_instance

/-- The record of a handle in a packet. -/
def recordIn (packet : ExtensibleLiveSignalPacket) (handle : ℕ) : Option LiveRecord :=
  (decodePacket packet.bytes).bind fun decoded =>
    decoded.2.find? fun record => record.handle = handle

/-- The record of a handle that a move got accepted by the sink, with its time. -/
def acceptedRecord (handle : ℕ) (move : Move) : Option (LiveRecord × LiveStreamClock) := do
  let attempt ← attempted catalog provider move
  let now ← offerTime move
  if attempt.queued then (recordIn attempt.packet handle).map fun record => (record, now) else none

/-- The memory of a record. -/
def memoryOf : Option (LiveRecord × LiveStreamClock) → AcceptedRecord
  | none => {}
  | some (record, now) => ⟨record.bytes, some now⟩

/-- The number of attempts since the last restart. -/
def attemptsSince (history : List Move) : ℕ :=
  (sinceLast (Restarts catalog provider) history).countP fun move =>
    (attempted catalog provider move).isSome

/-- The clock of the offers does not run backwards. -/
def Monotone (history : List Move) : Prop := (history.filterMap offerTime).Pairwise (· ≤ ·)

/-- **A stream agrees with its history.** -/
structure Agrees (s : ExtensibleLiveSignalStream) (history : List Move) : Prop where
  rotates : Rotates catalog s
  memory : ∀ handle, s.accepted handle =
    memoryOf (latest (Restarts catalog provider) (acceptedRecord catalog provider handle) history)
  sequence : s.nextSequence = UInt16.ofNat (attemptsSince catalog provider history)
  sampled : ∀ time, s.lastSample = some time → time ∈ history.filterMap offerTime
  paced : ∀ move ∈ sinceLast Resets history, (attempted catalog provider move).isSome →
    ∀ time, offerTime move = some time → ∃ last, s.lastSample = some last ∧ time ≤ last
  notifications : s.conditions.notificationsEnabled =
    (latest Resets notificationsCall history).getD false
  secured : s.conditions.linkSecured = (latest Resets securedCall history).getD false
  token : s.conditions.catalogToken = (latest Resets tokenCall history).getD 0
  paused : s.configPaused = (latest Resets pausedCall history).getD false

/-- **The law of one attempt**, given the moves before it. -/
structure AttemptLaw (before : List Move) (o : Offer) (header : LiveHeader)
    (records : List LiveRecord) : Prop where
  /-- Sequence numbers count the attempts since the last restart. -/
  sequence : header.sequence.toNat = attemptsSince catalog provider before % 2 ^ 16
  /-- A record differs from the remembered one, or that one is a second old. -/
  due : ∀ record ∈ records, ∀ remembered time,
    latest (Restarts catalog provider) (acceptedRecord catalog provider record.handle) before =
        some (remembered, time) →
      record ≠ remembered ∨ time + kLiveHeartbeatInterval ≤ o.now
  /-- Attempts on one connection are apart. -/
  spaced : ∀ earlier ∈ sinceLast Resets before, (attempted catalog provider earlier).isSome →
    ∀ time, offerTime earlier = some time → time + kLiveFrameInterval ≤ o.now
  /-- The stream was enabled and secured, had a token and was not paused. -/
  notifications : latest Resets notificationsCall before = some true
  secured : latest Resets securedCall before = some true
  token : header.token ≠ 0 ∧ latest Resets tokenCall before = some header.token
  paused : latest Resets pausedCall before ≠ some true

variable {catalog provider}

/-! ### Calls that are no offers -/

/-- The gates after a call. -/
theorem gates_updateConditions (s : ExtensibleLiveSignalStream)
    (update : Conditions → Conditions) :
    (s.updateConditions catalog update).conditions = update s.conditions ∧
      (s.updateConditions catalog update).configPaused = s.configPaused ∧
      (s.updateConditions catalog update).lastSample = s.lastSample := by
  rcases updateConditions_cases s update with ⟨-, -, heq⟩ | ⟨-, heq⟩ <;>
    exact heq ▸ ⟨rfl, rfl, rfl⟩

/-- A call that is no offer clears the memory and the sequence, or leaves both alone. -/
theorem control_cases (s : ExtensibleLiveSignalStream) (control : ∀ o, call ≠ .offer o) :
    (s.restarts catalog provider call ∧
        (s.step catalog provider call).1.accepted = (fun _ => {}) ∧
        (s.step catalog provider call).1.nextSequence = 0) ∨
      (¬ s.restarts catalog provider call ∧
        (s.step catalog provider call).1.accepted = s.accepted ∧
        (s.step catalog provider call).1.nextSequence = s.nextSequence) := by
  have conditions : ∀ update,
      ((s.streaming catalog = false ∧
          (s.updateConditions catalog update).streaming catalog = true) ∧
        (s.updateConditions catalog update).accepted = (fun _ => {}) ∧
        (s.updateConditions catalog update).nextSequence = 0) ∨
      (¬ (s.streaming catalog = false ∧
          (s.updateConditions catalog update).streaming catalog = true) ∧
        (s.updateConditions catalog update).accepted = s.accepted ∧
        (s.updateConditions catalog update).nextSequence = s.nextSequence) := by
    intro update
    rcases updateConditions_cases s update with ⟨hstop, hbegin, heq⟩ | ⟨steady, heq⟩
    · refine Or.inl ⟨⟨hstop, hbegin⟩, ?_⟩
      rw [heq]
      exact ⟨rfl, rfl⟩
    · refine Or.inr ⟨steady, ?_⟩
      rw [heq]
      exact ⟨rfl, rfl⟩
  cases call with
  | setNotificationsEnabled enabled => exact conditions _
  | setLinkSecured secured => exact conditions _
  | setAttMtu mtu => exact conditions _
  | setCatalogToken token =>
    by_cases same : s.conditions.catalogToken = token
    · have heq : s.setCatalogToken token = s := if_pos same
      refine Or.inr ⟨not_not.mpr same, ?_⟩
      show (s.setCatalogToken token).accepted = _ ∧ (s.setCatalogToken token).nextSequence = _
      rw [heq]
      exact ⟨rfl, rfl⟩
    · have heq : s.setCatalogToken token = _ := if_neg same
      refine Or.inl ⟨same, ?_⟩
      show (s.setCatalogToken token).accepted = _ ∧ (s.setCatalogToken token).nextSequence = _
      rw [heq]
      exact ⟨rfl, rfl⟩
  | setConfigPaused paused =>
    refine Or.inr ⟨?_, rfl, rfl⟩
    rintro ⟨hstop, hbegin⟩
    exact absurd (hstop.symm.trans hbegin) Bool.false_ne_true
  | resetConnection => exact Or.inl ⟨trivial, rfl, rfl⟩
  | offer o => exact absurd rfl (control o)

theorem attempted_control (control : ∀ o, call ≠ .offer o) :
    attempted catalog provider (s, call) = none := by
  cases call with
  | offer o => exact absurd rfl (control o)
  | _ => rfl

/-- A call that is no offer leaves the time of the last sample alone, unless it resets. -/
theorem lastSample_control (control : ∀ o, call ≠ .offer o) (keeps : ¬ Resets (s, call)) :
    (s.step catalog provider call).1.lastSample = s.lastSample := by
  cases call with
  | setCatalogToken token =>
    show (s.setCatalogToken token).lastSample = s.lastSample
    unfold setCatalogToken
    split <;> rfl
  | setConfigPaused paused => rfl
  | resetConnection => exact absurd trivial keeps
  | offer o => exact absurd rfl (control o)
  | _ => exact (gates_updateConditions s _).2.2

/-- An offer leaves the gates alone and does not restart the stream. -/
theorem gates_offer (few : catalog.signalCount ≤ kMaxSignalCatalogSignals)
    (rotates : Rotates catalog s) (o : Offer) :
    (s.offer catalog provider o).1.conditions = s.conditions ∧
      (s.offer catalog provider o).1.configPaused = s.configPaused := by
  have effect := @offerEffect_offer catalog provider s o few rotates
  generalize s.offer catalog provider o = result at effect ⊢
  obtain ⟨s', output⟩ := result
  cases effect <;> exact ⟨rfl, rfl⟩

theorem not_restarts_offer (few : catalog.signalCount ≤ kMaxSignalCatalogSignals)
    (rotates : Rotates catalog s) (o : Offer) : ¬ s.restarts catalog provider (.offer o) := by
  rintro ⟨hstop, hbegin⟩
  have same : (s.offer catalog provider o).1.streaming catalog = s.streaming catalog := by
    unfold ExtensibleLiveSignalStream.streaming
    rw [(gates_offer few rotates o).1]
  exact Bool.false_ne_true (hstop.symm.trans (same.symm.trans hbegin))

/-- What is told last through one kind of call is what the next state holds. -/
theorem getD_latest_snoc {A : Type} {value : Move → Option A} {move : Move} {default old new : A}
    (held : old = (latest Resets value history).getD default) (reset : Resets move → new = default)
    (told : ¬ Resets move → new = (value move).getD old) :
    new = (latest Resets value (history ++ [move])).getD default := by
  rw [latest_snoc]
  split
  · rename_i hreset
    exact reset hreset
  · rename_i hkeeps
    rw [told hkeeps]
    cases value move with
    | none => exact held
    | some a => rfl

/-- The gates after a call: cleared by a reset, else what the call tells. -/
theorem gates_step (few : catalog.signalCount ≤ kMaxSignalCatalogSignals)
    (rotates : Rotates catalog s) (call : StreamCall) : let s' := (s.step catalog provider call).1
    (Resets (s, call) → s'.conditions = {} ∧ s'.configPaused = false) ∧
      (¬ Resets (s, call) →
        s'.conditions.notificationsEnabled =
            (notificationsCall (s, call)).getD s.conditions.notificationsEnabled ∧
          s'.conditions.linkSecured = (securedCall (s, call)).getD s.conditions.linkSecured ∧
          s'.conditions.catalogToken = (tokenCall (s, call)).getD s.conditions.catalogToken ∧
          s'.configPaused = (pausedCall (s, call)).getD s.configPaused) := by
  have conditions : ∀ update, (s.updateConditions catalog update).conditions =
      update s.conditions ∧ (s.updateConditions catalog update).configPaused = s.configPaused :=
    fun update => ⟨(gates_updateConditions s update).1, (gates_updateConditions s update).2.1⟩
  have of_eq : ∀ {c c' : Conditions} {enabled secured paused paused' : Bool} {token : UInt32},
      c = c' → c'.notificationsEnabled = enabled → c'.linkSecured = secured →
      c'.catalogToken = token → paused = paused' →
      c.notificationsEnabled = enabled ∧ c.linkSecured = secured ∧ c.catalogToken = token ∧
        paused = paused' := by
    rintro c c' enabled secured paused paused' token rfl rfl rfl rfl rfl
    exact ⟨rfl, rfl, rfl, rfl⟩
  refine ⟨?_, fun keeps => ?_⟩
  · intro hreset
    cases call with
    | resetConnection => exact ⟨rfl, rfl⟩
    | _ => exact hreset.elim
  · cases call with
    | setNotificationsEnabled enabled =>
      obtain ⟨hconditions, hpaused⟩ := conditions fun c => { c with notificationsEnabled := enabled }
      exact of_eq hconditions rfl rfl rfl hpaused
    | setLinkSecured secured =>
      obtain ⟨hconditions, hpaused⟩ := conditions fun c => { c with linkSecured := secured }
      exact of_eq hconditions rfl rfl rfl hpaused
    | setAttMtu mtu =>
      obtain ⟨hconditions, hpaused⟩ := conditions fun c => { c with attMtu := mtu }
      exact of_eq hconditions rfl rfl rfl hpaused
    | setCatalogToken token =>
      show (s.setCatalogToken token).conditions.notificationsEnabled = _ ∧
        (s.setCatalogToken token).conditions.linkSecured = _ ∧
        (s.setCatalogToken token).conditions.catalogToken = token ∧
        (s.setCatalogToken token).configPaused = _
      unfold setCatalogToken
      split
      · rename_i same
        exact ⟨rfl, rfl, same, rfl⟩
      · exact ⟨rfl, rfl, rfl, rfl⟩
    | setConfigPaused paused => exact ⟨rfl, rfl, rfl, rfl⟩
    | resetConnection => exact absurd trivial keeps
    | offer o =>
      obtain ⟨hconditions, hpaused⟩ := @gates_offer catalog provider s few rotates o
      exact of_eq hconditions rfl rfl rfl hpaused

/-! ### Calls of a run -/

theorem attemptsSince_snoc (history : List Move) (move : Move) :
    attemptsSince catalog provider (history ++ [move]) =
      if Restarts catalog provider move then 0
      else attemptsSince catalog provider history +
        if (attempted catalog provider move).isSome then 1 else 0 := by
  unfold attemptsSince
  rw [sinceLast_snoc]
  split
  · rfl
  · rw [List.countP_append, List.countP_singleton]

theorem acceptedRecord_of_attempted {handle : ℕ} {move : Move}
    (h : attempted catalog provider move = none) :
    acceptedRecord catalog provider handle move = none := by
  rw [acceptedRecord, h]
  rfl

/-- The records of a pass, as the history sees them. -/
theorem recordIn_pass {o : Offer} {records : List LiveRecord} {packet : ExtensibleLiveSignalPacket}
    {cursor : ℕ} (few : catalog.signalCount ≤ kMaxSignalCatalogSignals)
    (pass : s.Pass catalog provider o records packet cursor) (handle : ℕ) :
    recordIn packet handle = records.find? fun record => record.handle = handle := by
  rw [recordIn, pass.decodes few]
  rfl

section Step

variable (few : catalog.signalCount ≤ kMaxSignalCatalogSignals)
  (agrees : Agrees catalog provider s history)

include few agrees

/-- The memory after a call, as the history tells it. -/
theorem memory_step (call : StreamCall) (handle : ℕ) :
    (s.step catalog provider call).1.accepted handle =
      memoryOf (latest (Restarts catalog provider) (acceptedRecord catalog provider handle)
        (history ++ [(s, call)])) := by
  rw [latest_snoc]
  by_cases control : ∀ o, call ≠ .offer o
  · rw [acceptedRecord_of_attempted (attempted_control control), Option.none_or]
    rcases @control_cases catalog provider call s control with ⟨restarts, haccepted, -⟩ |
      ⟨steady, haccepted, -⟩
    · rw [if_pos (show Restarts catalog provider (s, call) from restarts), haccepted]
      rfl
    · rw [if_neg (show ¬ Restarts catalog provider (s, call) from steady), haccepted]
      exact agrees.memory handle
  · obtain ⟨o, rfl⟩ := not_forall_not.mp control
    have steady : ¬ Restarts catalog provider (s, .offer o) :=
      not_restarts_offer few agrees.rotates o
    have hattempt : attempted catalog provider (s, .offer o) = (s.offer catalog provider o).2 := rfl
    rw [if_neg steady, acceptedRecord, hattempt]
    show (s.offer catalog provider o).1.accepted handle = _
    have effect := @offerEffect_offer catalog provider s o few agrees.rotates
    generalize s.offer catalog provider o = result at effect ⊢
    obtain ⟨s', output⟩ := result
    cases effect with
    | closed => exact agrees.memory handle
    | quiet => exact agrees.memory handle
    | attempted _ records packet _ _ pass =>
      show (if o.tryQueue packet then remembered records o.now s.accepted else s.accepted) handle =
        memoryOf ((if o.tryQueue packet then
          (recordIn packet handle).map fun record => (record, o.now) else none).or _)
      rw [recordIn_pass few pass]
      split
      · unfold remembered
        cases records.find? fun record => record.handle = handle with
        | none => exact agrees.memory handle
        | some record => rfl
      · exact agrees.memory handle

/-- The sequence number after a call, as the history tells it. -/
theorem sequence_step (call : StreamCall) :
    (s.step catalog provider call).1.nextSequence =
      UInt16.ofNat (attemptsSince catalog provider (history ++ [(s, call)])) := by
  rw [attemptsSince_snoc]
  by_cases control : ∀ o, call ≠ .offer o
  · rw [attempted_control control]
    rcases @control_cases catalog provider call s control with ⟨restarts, -, hsequence⟩ |
      ⟨steady, -, hsequence⟩
    · rw [if_pos (show Restarts catalog provider (s, call) from restarts), hsequence]
      rfl
    · rw [if_neg (show ¬ Restarts catalog provider (s, call) from steady), hsequence]
      exact agrees.sequence
  · obtain ⟨o, rfl⟩ := not_forall_not.mp control
    have steady : ¬ Restarts catalog provider (s, .offer o) :=
      not_restarts_offer few agrees.rotates o
    have hattempt : attempted catalog provider (s, .offer o) = (s.offer catalog provider o).2 := rfl
    rw [if_neg steady, hattempt]
    show (s.offer catalog provider o).1.nextSequence = _
    have effect := @offerEffect_offer catalog provider s o few agrees.rotates
    generalize s.offer catalog provider o = result at effect ⊢
    obtain ⟨s', output⟩ := result
    cases effect with
    | closed => exact agrees.sequence
    | quiet => exact agrees.sequence
    | attempted =>
      show s.nextSequence + 1 = UInt16.ofNat (attemptsSince catalog provider history + 1)
      rw [agrees.sequence, UInt16.ofNat_add]
      rfl

/-- The pacing after a call. -/
theorem paced_step (call : StreamCall)
    (monotone : ∀ now, call.time = some now → ∀ time ∈ history.filterMap offerTime, time ≤ now) :
    let s' := (s.step catalog provider call).1
    (∀ time, s'.lastSample = some time →
        time ∈ (history ++ [(s, call)]).filterMap offerTime) ∧
      ∀ move ∈ sinceLast Resets (history ++ [(s, call)]),
        (attempted catalog provider move).isSome → ∀ time, offerTime move = some time →
          ∃ last, s'.lastSample = some last ∧ time ≤ last := by
  intro s'
  have earlier : ∀ time ∈ history.filterMap offerTime,
      time ∈ (history ++ [(s, call)]).filterMap offerTime := by
    intro time htime
    rw [List.filterMap_append]
    exact List.mem_append_left _ htime
  rw [sinceLast_snoc]
  by_cases control : ∀ o, call ≠ .offer o
  · by_cases hreset : Resets (s, call)
    · rw [if_pos hreset]
      refine ⟨fun time htime => ?_, fun move hmove => absurd hmove List.not_mem_nil⟩
      cases call with
      | resetConnection => cases htime
      | _ => exact hreset.elim
    · have hsame : s'.lastSample = s.lastSample := lastSample_control control hreset
      rw [if_neg hreset, hsame]
      refine ⟨fun time htime => earlier time (agrees.sampled time htime), fun move hmove => ?_⟩
      rcases List.mem_append.mp hmove with hmove | hmove
      · exact agrees.paced move hmove
      · intro hattempt
        rw [List.mem_singleton.mp hmove, attempted_control control] at hattempt
        cases hattempt
  · obtain ⟨o, rfl⟩ := not_forall_not.mp control
    rw [if_neg (show ¬ Resets (s, .offer o) from id)]
    have hnow : o.now ∈ (history ++ [(s, StreamCall.offer o)]).filterMap offerTime := by
      rw [List.filterMap_append]
      exact List.mem_append_right _ List.mem_cons_self
    -- an offer that samples is no earlier than the last sample
    have advance : ∀ time last, s.lastSample = some last → time ≤ last → time ≤ o.now :=
      fun time last hlast hle =>
        Int.le_trans hle (monotone o.now rfl last (agrees.sampled last hlast))
    have hattempt : attempted catalog provider (s, .offer o) = (s.offer catalog provider o).2 := rfl
    have effect := @offerEffect_offer catalog provider s o few agrees.rotates
    have hs' : s' = (s.offer catalog provider o).1 := rfl
    clear_value s'
    generalize s.offer catalog provider o = result at effect hattempt hs'
    obtain ⟨s'', output⟩ := result
    subst hs'
    have sampled : s'.lastSample = some o.now →
        (∀ time, s'.lastSample = some time →
          time ∈ (history ++ [(s, StreamCall.offer o)]).filterMap offerTime) ∧
        ∀ move ∈ sinceLast Resets history ++ [(s, StreamCall.offer o)],
          (attempted catalog provider move).isSome → ∀ time, offerTime move = some time →
            ∃ last, s'.lastSample = some last ∧ time ≤ last := by
      intro hlast
      refine ⟨fun time htime => ?_, fun move hmove hsome time htime => ⟨o.now, hlast, ?_⟩⟩
      · rw [Option.some.inj (htime.symm.trans hlast)]
        exact hnow
      · rcases List.mem_append.mp hmove with hmove | hmove
        · obtain ⟨last, hlast, hle⟩ := agrees.paced move hmove hsome time htime
          exact advance time last hlast hle
        · rw [List.mem_singleton.mp hmove] at htime
          exact Int.le_of_eq (Option.some.inj htime).symm
    cases effect with
    | closed =>
      refine ⟨fun time htime => earlier time (agrees.sampled time htime), fun move hmove => ?_⟩
      rcases List.mem_append.mp hmove with hmove | hmove
      · exact agrees.paced move hmove
      · intro hsome
        rw [List.mem_singleton.mp hmove, hattempt] at hsome
        cases hsome
    | quiet => exact sampled rfl
    | attempted => exact sampled rfl

/-- **One call keeps the agreement.** -/
theorem agrees_step (call : StreamCall)
    (monotone : ∀ now, call.time = some now → ∀ time ∈ history.filterMap offerTime, time ≤ now) :
    Agrees catalog provider (s.step catalog provider call).1 (history ++ [(s, call)]) := by
  obtain ⟨reset, told⟩ := @gates_step catalog provider s few agrees.rotates call
  obtain ⟨sampled, paced⟩ := paced_step few agrees call monotone
  exact
    { rotates := rotates_step few agrees.rotates call
      memory := memory_step few agrees call
      sequence := sequence_step few agrees call
      sampled := sampled
      paced := paced
      notifications := getD_latest_snoc agrees.notifications
        (fun h => congrArg Conditions.notificationsEnabled (reset h).1) (fun h => (told h).1)
      secured := getD_latest_snoc agrees.secured
        (fun h => congrArg Conditions.linkSecured (reset h).1) (fun h => (told h).2.1)
      token := getD_latest_snoc agrees.token
        (fun h => congrArg Conditions.catalogToken (reset h).1) (fun h => (told h).2.2.1)
      paused := getD_latest_snoc agrees.paused (fun h => (reset h).2)
        (fun h => (told h).2.2.2) }

end Step

/-! ### The law of an attempt -/

theorem time_of_acceptedRecord {handle : ℕ} {move : Move} {record : LiveRecord}
    {time : LiveStreamClock}
    (h : acceptedRecord catalog provider handle move = some (record, time)) :
    offerTime move = some time := by
  obtain ⟨attempt, -, h⟩ := Option.bind_eq_some_iff.mp h
  obtain ⟨now, hnow, h⟩ := Option.bind_eq_some_iff.mp h
  split at h
  · obtain ⟨r, -, heq⟩ := Option.map_eq_some_iff.mp h
    rw [hnow, (Prod.mk.inj heq).2]
  · cases h

/-- A condition that holds was told. -/
theorem latest_eq_some_of_getD {A : Type} {value : Option A} {default a : A} (ne : a ≠ default)
    (h : a = value.getD default) : value = some a := by
  cases value with
  | none => exact absurd h ne
  | some b => rw [h]; rfl

/-- **An attempt is lawful** when the stream agrees with its history. -/
theorem attemptLaw_step (few : catalog.signalCount ≤ kMaxSignalCatalogSignals)
    (agrees : Agrees catalog provider s history) {attempt : Attempt}
    (monotone : ∀ now, call.time = some now → ∀ time ∈ history.filterMap offerTime, time ≤ now)
    (hattempt : attempted catalog provider (s, call) = some attempt) :
    ∃ o header records, call = .offer o ∧ attempt.queued = o.tryQueue attempt.packet ∧
      decodePacket attempt.packet.bytes = some (header, records) ∧
      AttemptLaw catalog provider history o header records := by
  have offered : ∃ o, call = .offer o := by
    by_contra control
    rw [attempted_control fun o heq => control ⟨o, heq⟩] at hattempt
    cases hattempt
  obtain ⟨o, rfl⟩ := offered
  have hsame : attempted catalog provider (s, .offer o) = (s.offer catalog provider o).2 := rfl
  have effect := @offerEffect_offer catalog provider s o few agrees.rotates
  rw [hsame] at hattempt
  rw [hattempt] at effect
  generalize (s.offer catalog provider o).1 = s' at effect
  cases effect with
  | attempted opens records packet cursor _ pass =>
    obtain ⟨streaming, unpaused, sampleDue⟩ := opens
    unfold ExtensibleLiveSignalStream.streaming at streaming
    simp only [Bool.and_eq_true, decide_eq_true_eq] at streaming
    obtain ⟨⟨⟨⟨-, hnotifications⟩, hsecured⟩, -⟩, htoken⟩ := streaming
    refine ⟨o, s.header o, records, rfl, rfl, pass.decodes few,
      { sequence := ?_, due := ?_, spaced := ?_, notifications := ?_, secured := ?_,
        token := ⟨htoken, ?_⟩, paused := ?_ }⟩
    · show s.nextSequence.toNat = _
      rw [agrees.sequence, UInt16.toNat_ofNat']
    · intro record hrecord remembered time hlatest
      obtain ⟨move, hmove, haccepted⟩ := exists_of_latest hlatest
      have hpast : time ≤ o.now := monotone o.now rfl time
        (List.mem_filterMap.mpr ⟨move, hmove, time_of_acceptedRecord haccepted⟩)
      have due := (pass.due record hrecord).2
      unfold Due at due
      rw [agrees.memory, hlatest] at due
      rcases due with hnone | hdiffers | hahead | hold
      · cases hnone
      · exact Or.inl fun heq => hdiffers (congrArg LiveRecord.bytes heq.symm)
      · exact absurd hpast (Int.not_le.mpr hahead)
      · exact Or.inr (Int.add_le_of_le_sub_left hold)
    · intro earlier hearlier hsome time htime
      obtain ⟨last, hlast, hle⟩ := agrees.paced earlier hearlier hsome time htime
      have hpast := monotone o.now rfl last (agrees.sampled last hlast)
      unfold ExtensibleLiveSignalStream.sampleDue at sampleDue
      rw [hlast] at sampleDue
      rcases sampleDue with hahead | hold
      · exact absurd hpast (Int.not_le.mpr hahead)
      · exact Int.le_trans (Int.add_le_add_right hle _) (Int.add_le_of_le_sub_left hold)
    · refine latest_eq_some_of_getD Bool.false_ne_true.symm ?_
      rw [← agrees.notifications, hnotifications]
    · refine latest_eq_some_of_getD Bool.false_ne_true.symm ?_
      rw [← agrees.secured, hsecured]
    · exact latest_eq_some_of_getD htoken agrees.token
    · intro hpaused
      have := agrees.paused
      rw [hpaused, unpaused] at this
      cases this

theorem agrees_start : Agrees catalog provider {} [] where
  rotates := rotates_restartStream {}
  memory _ := rfl
  sequence := rfl
  sampled _ h := by cases h
  paced _ h := absurd h List.not_mem_nil
  notifications := rfl
  secured := rfl
  token := rfl
  paused := rfl

/-- **The acceptance memory.** In every run whose clock does not run backwards, a handle's memory is
its record in the latest accepted packet since the last restart, and every attempt is lawful:
sequence numbers count the attempts since the last restart, records are new or a second old,
attempts on one connection are 100 ms apart, and the gates were open. -/
theorem live_stream_acceptance_memory (view provider : SignalCatalogView)
    (calls : List StreamCall) (monotone : (calls.filterMap StreamCall.time).Pairwise (· ≤ ·)) :
    let catalog := SignalCatalogExport.create view
    let history := Machine.moves (step catalog provider) {} calls
    (∀ handle, (Machine.after (step catalog provider) {} calls).accepted handle =
      memoryOf (latest (Restarts catalog provider) (acceptedRecord catalog provider handle)
        history)) ∧
    ∀ before move after, history = before ++ move :: after →
      ∀ attempt, attempted catalog provider move = some attempt →
        ∃ o header records, move.2 = .offer o ∧ attempt.queued = o.tryQueue attempt.packet ∧
          decodePacket attempt.packet.bytes = some (header, records) ∧
          AttemptLaw catalog provider before o header records := by
  intro catalog history
  have few := signalCount_create_le view
  have clock : Monotone history := by
    have hcalls : history.filterMap offerTime = calls.filterMap StreamCall.time := by
      rw [← Machine.map_snd_moves (step catalog provider) {} calls, List.filterMap_map]
      rfl
    rw [Monotone, hcalls]
    exact monotone
  -- an admissible history has an agreeing stream and lawful attempts
  have invariant := Machine.invariant_moves
    (P := fun s history => Monotone history → Agrees catalog provider s history ∧
      Lawful (fun before move => ∀ attempt, attempted catalog provider move = some attempt →
        ∃ o header records, move.2 = .offer o ∧ attempt.queued = o.tryQueue attempt.packet ∧
          decodePacket attempt.packet.bytes = some (header, records) ∧
          AttemptLaw catalog provider before o header records) history)
    (fun _ => ⟨agrees_start, lawful_nil _⟩) ?_ calls clock
  · exact ⟨invariant.1.memory, invariant.2⟩
  · intro s history call ih clock
    unfold Monotone at clock
    rw [List.filterMap_append, List.pairwise_append] at clock
    obtain ⟨agrees, lawful⟩ := ih clock.1
    have last : ∀ now, call.time = some now → ∀ time ∈ history.filterMap offerTime,
        time ≤ now := by
      intro now hnow time htime
      refine clock.2.2 time htime now ?_
      exact List.mem_filterMap.mpr ⟨(s, call), List.mem_cons_self, hnow⟩
    refine ⟨agrees_step few agrees call last, lawful_snoc.mpr ⟨lawful, fun attempt hattempt => ?_⟩⟩
    exact attemptLaw_step few agrees last hattempt

/-- The gear selector in park, accepted at the first sample and offered again too early. -/
theorem live_stream_acceptance_memory_gear :
    (Machine.after (step (SignalCatalogExport.create gearCatalog) gearCatalog) {}
      [.setNotificationsEnabled true, .setLinkSecured true, .setAttMtu 64, .setCatalogToken 1,
        .offer { gearOffer with tryQueue := fun _ => true },
        .offer { gearOffer with now := 150 }]).accepted 1 = ⟨[6, 1, 0, 3, 9, 1, 0], some 100⟩ := by
  rw [(live_stream_acceptance_memory gearCatalog gearCatalog _ (by decide)).1 1]
  decide +kernel

end ExtensibleLiveSignalStream

end AccessoryController.CompanionProtocol
