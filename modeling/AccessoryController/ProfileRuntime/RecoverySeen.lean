import AccessoryController.ProfileRuntime.Runtime
import AccessoryController.ProfileRuntime.TableSafety
import AccessoryController.SignalNotification.Owed

/-!
# A recovery through a timeout is seen

A frame may find a signal expired and make it usable again in one call. The reading of the signal
is then available before the call and after it, and only the two lists of the result tell of the
gap. The publication of the result takes the channel through a stale reading, so that every
subscriber is told of the loss and of the recovery, in one notice.

## Main definitions

* `deliveredNotices index slot h`: the notices that a run delivers to a subscriber of a channel
* `reportsDue id move`, `commits id move`: a call reports the expiry of a signal; a call stores a
  sample of it

## Main results

* `channel_run`: a run of the notifications is a run of each channel
* `owed_after_publish`: what the publication of an expiry with a recovery leaves in a channel
* `reported_once`: the expiry of a sample is reported once
* `recovery_seen`: both, in every run
-/

namespace AccessoryController.ProfileRuntime

open VehicleCore VehicleSignals AccessoryController.SignalNotification NotificationState
open ProfileState (profile_process profile_step tables_of_profile)

variable {κ : Type} {isValid : RawCanFrame → Bool}

/-! ### Runs of the channels -/

/-- A call that does not take the lock of the processor: a subscriber's, or one of a dispatch. -/
def RuntimeCall.quiet : RuntimeCall κ → Bool
  | .provider _ | .publish _ _ | .start _ | .stop => false
  | _ => true

/-- The notices delivered to the subscriber in a slot of a channel. -/
def deliveredNotices (index : ℕ) (slot : Slot) (h : List (RuntimeCall κ × RuntimeAnswer κ)) :
    List (Notification SignalValue) :=
  h.filterMap fun event =>
    match event with
    | (.dispatchOne i, .notified (.detached (some d))) =>
      if i = index ∧ d.slot = slot then some d.notice else none
    | _ => none

/-- A row of calls that a channel sees as `moves`. -/
structure SeenAs (index : ℕ) (r r' : RuntimeState κ)
    (h : List (RuntimeCall κ × RuntimeAnswer κ)) (moves : List (Call SignalValue Slot)) :
    Prop where
  running : r'.notifications.running = true
  count : r'.notifications.channelCount = r.notifications.channelCount
  kept : ∀ move ∈ moves, move ≠ .stop
  channel : (r'.notifications.channels index).channel =
    Machine.after (Channel.step runtimeChannelId) (r.notifications.channels index).channel moves
  notices : ∀ slot, deliveredNotices index slot h = noticesTo slot
    (Machine.trace (Channel.step runtimeChannelId) (r.notifications.channels index).channel moves)

/-- The publication of a result is a row of publications. -/
theorem publishResult_moves (result : ProviderProcessResult)
    (readings : SignalId → Except SignalStatus SignalReading)
    (binding : NotificationChannelBinding κ) :
    ∃ published : List SignalReading, (binding.publishResult result readings).channel =
      Machine.after (Channel.step runtimeChannelId) binding.channel
        (published.map Call.publish) := by
  unfold NotificationChannelBinding.publishResult
  dsimp only
  split
  · exact ⟨[], rfl⟩
  split
  · exact ⟨[], rfl⟩
  next current _ =>
  split
  · exact ⟨[_, current], rfl⟩
  · exact ⟨[current], rfl⟩

/-- Publications deliver nothing. -/
theorem noticesTo_publishes (c : Channel SignalValue Slot) (published : List SignalReading)
    (slot : Slot) : noticesTo slot (Machine.trace (Channel.step runtimeChannelId) c
      (published.map Call.publish)) = [] := by
  induction published generalizing c with
  | nil => rfl
  | cons reading published ih => exact ih _

/-- What one dispatch delivers to a slot. -/
def noticeFor (slot : Slot) (delivery : Option (Channel.Delivery SignalValue Slot)) :
    List (Notification SignalValue) :=
  match delivery with
  | some d => if d.slot = slot then [d.notice] else []
  | none => []

theorem deliveredNotices_dispatchOne (i index : ℕ) (slot : Slot)
    (delivery : Option (Channel.Delivery SignalValue Slot)) :
    deliveredNotices index slot
        [((.dispatchOne i : RuntimeCall κ), .notified (.detached delivery))] =
      if i = index then noticeFor slot delivery else [] := by
  cases delivery with
  | none => exact (ite_self _).symm
  | some d =>
    by_cases here : i = index <;> by_cases there : d.slot = slot <;>
      simp [deliveredNotices, noticeFor, here, there]

theorem noticesTo_dispatchOne (c : Channel SignalValue Slot) (slot : Slot) :
    noticesTo slot [(.dispatchOne, (c.step runtimeChannelId .dispatchOne).2)] =
      noticeFor slot c.dispatchOne.2.toOption := by
  rcases dispatchOne_cases c with ⟨status, heq⟩ | ⟨index, -, -, -, -, -, -, told⟩
  · simp [Channel.step, heq, noticesTo, noticeFor, Except.toOption]
  · by_cases here : index = slot <;>
      simp [Channel.step, told, noticesTo, noticeFor, Except.toOption, here]

section Steps

variable {r : RuntimeState κ} {index : ℕ}

theorem SeenAs.refl (running : r.notifications.running = true)
    {h : List (RuntimeCall κ × RuntimeAnswer κ)}
    (silent : ∀ slot, deliveredNotices index slot h = []) : SeenAs index r r h [] :=
  ⟨running, rfl, fun _ mem => absurd mem List.not_mem_nil, rfl, silent⟩

/-- A call on running notifications is a row of calls on each channel. -/
theorem channel_step (isValid : RawCanFrame → Bool) (sound : r.Sound)
    (running : r.notifications.running = true) {call : RuntimeCall κ} (kept : call ≠ .stop)
    (within : index < r.notifications.channelCount) :
    ∃ moves, SeenAs index r (r.step isValid call).1 [(call, (r.step isValid call).2)] moves ∧
      (call.quiet = true → ∀ move ∈ moves, move.dispatches = true) := by
  have stays : ∀ moves : List (Call SignalValue Slot), moves = [] → call.quiet = true →
      ∀ move ∈ moves, move.dispatches = true := by
    rintro _ rfl _ move mem
    cases mem
  have run : ∀ {X : Prop}, r.notifications.running = false → X := fun h =>
    absurd (h.symm.trans running) Bool.false_ne_true
  cases call with
  | provider call => exact ⟨[], ⟨running, rfl, nofun, rfl, fun _ => rfl⟩, stays [] rfl⟩
  | publish result nowUs =>
    show ∃ moves, SeenAs index r { r with
      notifications := r.notifications.publish r.provider result (r.readings nowUs) } _ moves ∧ _
    unfold publish
    split
    · exact ⟨[], .refl running fun _ => rfl, stays [] rfl⟩
    obtain ⟨published, same⟩ := publishResult_moves result (r.readings nowUs)
      (r.notifications.channels index)
    refine ⟨published.map .publish, ⟨running, rfl, fun move mem => ?_, ?_, fun slot => ?_⟩,
      nofun⟩
    · obtain ⟨_, -, rfl⟩ := List.mem_map.mp mem
      exact nofun
    · dsimp only
      rw [channels_mapChannels, if_pos within, same]
    · rw [noticesTo_publishes]
      rfl
  | start nowUs =>
    have same : (r.step isValid (.start nowUs)).1 = r := by
      show { r with notifications :=
        r.notifications.setRunning r.provider true (r.readings nowUs) } = r
      unfold setRunning
      rw [running, if_pos rfl, if_pos rfl, ite_self, ite_self]
    rw [same]
    exact ⟨[], .refl running fun _ => rfl, stays [] rfl⟩
  | stop => exact absurd rfl kept
  | subscribe id callback ownerAllowed =>
    have same : (r.step isValid (.subscribe id callback ownerAllowed)).1 = r := by
      show { r with notifications :=
        (r.notifications.subscribe r.provider id callback ownerAllowed).1 } = r
      rcases subscribe_cases sound.consistent id callback ownerAllowed with
        ⟨status, heq⟩ | ⟨_, _, -, -, -, stopped, -⟩
      · rw [heq]
      · exact run stopped
    rw [same]
    exact ⟨[], .refl running fun _ => rfl, stays [] rfl⟩
  | unsubscribe subscription ownerAllowed =>
    have same : (r.step isValid (.unsubscribe subscription ownerAllowed)).1 = r := by
      show { r with notifications :=
        (r.notifications.unsubscribe r.provider subscription ownerAllowed).1 } = r
      rcases unsubscribe_cases sound.consistent subscription ownerAllowed with
        ⟨status, -, heq⟩ | ⟨_, -, stopped, -⟩
      · rw [heq]
      · exact run stopped
    rw [same]
    exact ⟨[], .refl running fun _ => rfl, stays [] rfl⟩
  | dispatchOne i =>
    show ∃ moves, SeenAs index r { r with notifications := (r.notifications.dispatchOne i).1 }
      [(.dispatchOne i, .notified (.detached (r.notifications.dispatchOne i).2))] moves ∧ _
    unfold dispatchOne
    split
    · exact ⟨[], .refl running fun _ => rfl, stays [] rfl⟩
    by_cases here : i = index
    · subst here
      refine ⟨[.dispatchOne], ⟨running, rfl, by simp, ?_, fun slot => ?_⟩,
        fun _ => by simp [Call.dispatches]⟩
      · dsimp only
        rw [channels_setChannel, if_pos rfl]
        rfl
      · rw [deliveredNotices_dispatchOne, if_pos rfl]
        exact (noticesTo_dispatchOne _ slot).symm
    · refine ⟨[], ⟨running, rfl, nofun, ?_, fun slot => ?_⟩, stays [] rfl⟩
      · dsimp only
        rw [channels_setChannel, if_neg (Ne.symm here)]
        rfl
      · rw [deliveredNotices_dispatchOne, if_neg here]
        rfl
  | trampolineEntered i slot notice =>
    refine ⟨[], ⟨?_, ?_, nofun, ?_, fun _ => rfl⟩, stays [] rfl⟩ <;>
      dsimp only [RuntimeState.step, RuntimeState.notify, step,
        notificationTrampoline] <;>
      split <;> trivial
  | trampolineLeft => exact ⟨[], ⟨running, rfl, nofun, rfl, fun _ => rfl⟩, stays [] rfl⟩
  | callbackReturned i =>
    show ∃ moves, SeenAs index r { r with notifications := r.notifications.callbackReturned i }
      _ moves ∧ _
    unfold callbackReturned
    split
    · exact ⟨[], .refl running fun _ => rfl, stays [] rfl⟩
    by_cases here : i = index
    · subst here
      refine ⟨[.callbackReturned], ⟨running, rfl, by simp, ?_, fun slot => rfl⟩,
        fun _ => by simp [Call.dispatches]⟩
      rw [channels_setChannel, if_pos rfl]
      rfl
    · refine ⟨[], ⟨running, rfl, nofun, ?_, fun slot => rfl⟩, stays [] rfl⟩
      rw [channels_setChannel, if_neg (Ne.symm here)]
      rfl

/-- **A run of the notifications is a run of each channel.** -/
theorem channel_run (isValid : RawCanFrame → Bool) (sound : r.Sound)
    (running : r.notifications.running = true) (within : index < r.notifications.channelCount)
    {calls : List (RuntimeCall κ)} (kept : ∀ call ∈ calls, call ≠ .stop) :
    ∃ moves, SeenAs index r (Machine.after (RuntimeState.step isValid) r calls)
        (Machine.trace (RuntimeState.step isValid) r calls) moves ∧
      ((∀ call ∈ calls, call.quiet = true) → ∀ move ∈ moves, move.dispatches = true) := by
  induction calls generalizing r with
  | nil => exact ⟨[], .refl running fun _ => rfl, fun _ move mem => absurd mem List.not_mem_nil⟩
  | cons call calls ih =>
    obtain ⟨first, seen, quiet⟩ :=
      channel_step isValid sound running (kept call List.mem_cons_self) within
    obtain ⟨rest, seen', quiet'⟩ := ih (r := (r.step isValid call).1)
      (RuntimeState.sound_step sound call) seen.running (seen.count ▸ within)
      fun other mem => kept other (List.mem_cons_of_mem _ mem)
    refine ⟨first ++ rest, ⟨seen'.running, seen'.count.trans seen.count, fun move mem => ?_, ?_,
      fun slot => ?_⟩, fun all move mem => ?_⟩
    · rcases List.mem_append.mp mem with mem | mem
      · exact seen.kept move mem
      · exact seen'.kept move mem
    · rw [Machine.after_append, ← seen.channel]
      exact seen'.channel
    · have now := seen.notices slot
      have later := seen'.notices slot
      rw [seen.channel] at later
      rw [Machine.trace_append]
      unfold noticesTo deliveredNotices at now later ⊢
      rw [List.filterMap_append, ← now, ← later]
      exact List.filterMap_append (l := [_])
    · rcases List.mem_append.mp mem with mem | mem
      · exact quiet (all call List.mem_cons_self) move mem
      · exact quiet' (fun other h => all other (List.mem_cons_of_mem _ h)) move mem

end Steps

/-! ### The publication of a recovery -/

variable {sample : SignalState} {frame : RawCanFrame}

section Publication

variable {s : ProfileState} {id : SignalId} {nowUs : MonotonicTimestamp}

/-- What a successful read shows of the slot. -/
theorem read_slot {reading : SignalReading} (read : s.read id nowUs = .ok reading) :
    (s.tables.catalog.find id).isSome = true ∧
      reading.value = (if (s.signal id).hasValue then some (s.signal id).value else none) ∧
      ∃ policy, freshnessFor s.tables id = some policy ∧
        reading.availability = (s.signal id).availabilityAt policy nowUs := by
  unfold ProfileState.read at read
  split at read
  · cases read
  next metadata known =>
  split at read
  · cases read
  split at read
  · cases read
  dsimp only at read
  split at read
  · cases read
  split at read
  · cases read
  next policy declared =>
  obtain rfl := Except.ok.inj read
  exact ⟨Option.isSome_iff_exists.mpr ⟨metadata, known⟩, rfl, policy, declared, rfl⟩

/-- The slot that a usable decode leaves. -/
theorem SignalState.deliver_commit {timestampUs : MonotonicTimestamp} (value : SignalValue)
    (taken : (sample.updateWatermark timestampUs).isSome = true) :
    let sample' := sample.deliver timestampUs (some (some value))
    sample'.hasValue = true ∧ sample'.invalid = false ∧ sample'.dueReported = false ∧
      sample'.sampleTimestampUs = timestampUs := by
  obtain ⟨raised, hraised⟩ := Option.isSome_iff_exists.mp taken
  unfold deliver
  rw [hraised]
  exact ⟨rfl, rfl, rfl, rfl⟩

/-- The slot of a signal after a frame. -/
theorem signal_process (isValid : RawCanFrame → Bool) (frame : RawCanFrame)
    (nowUs : MonotonicTimestamp) (wellFormed : tableWellFormed s.tables)
    (valid : s.validTables = true) (known : (s.tables.catalog.find id).isSome = true) :
    (s.process isValid frame nowUs).1.signal id =
      ((s.signal id).reported (freshnessFor s.tables id) nowUs).deliver frame.timestampUs
        (decodeOf isValid s.tables frame id) := by
  have tables := tables_of_profile (profile_process isValid s frame nowUs)
  show (s.process isValid frame nowUs).1.signals (signalIndex _ id) = _
  rw [tables, ProfileState.process_slot wellFormed valid known, serviceDueLocked_signals,
    s.slotPolicy_signalIndex known]
  rfl

/-- A signal that recovers reads available at the time of the call. -/
theorem available_of_recovers (wellFormed : tableWellFormed s.tables) (valid : s.validTables = true)
    (recovers : s.recovers isValid frame nowUs id = true) {reading : SignalReading}
    (read : (s.process isValid frame nowUs).1.read id nowUs = .ok reading) :
    available reading = true := by
  have tables := tables_of_profile (profile_process isValid s frame nowUs)
  have known := known_of_accepts wellFormed (accepts_of_recovers recovers)
  obtain ⟨-, value, policy, hpolicy, shown⟩ := read_slot read
  rw [tables] at hpolicy
  unfold ProfileState.recovers SignalState.recoversAt at recovers
  simp only [Bool.and_eq_true] at recovers
  obtain ⟨⟨⟨decoded, taken⟩, -⟩, fresh⟩ := recovers
  have slot := signal_process isValid frame nowUs wellFormed valid known
  cases hdecode : decodeOf isValid s.tables frame id with
  | none => simp [hdecode] at decoded
  | some decode =>
    cases decode with
    | none => simp [hdecode] at decoded
    | some stored =>
      rw [hdecode] at slot
      obtain ⟨hasValue, invalid, -, timestamp⟩ := SignalState.deliver_commit stored
        ((SignalState.updateWatermark_reported nowUs (freshnessFor s.tables id) (s.signal id)
          frame.timestampUs).trans taken)
      rw [← slot] at hasValue invalid timestamp
      rw [hasValue, if_pos rfl] at value
      rw [hpolicy, Option.any_some] at fresh
      unfold available
      rw [value, shown]
      unfold SignalState.availabilityAt
      rw [hasValue, invalid, timestamp]
      cases hdeclared : policy.declared with
      | false => rfl
      | true =>
        have intime : ¬freshnessDeadline frame.timestampUs policy < nowUs := by
          simpa [hdeclared] using fresh
        simp [intime]

/-- A result that names a signal comes from a provider over a checked profile. -/
theorem valid_of_due (due : id ∈ (s.process isValid frame nowUs).2.due) : s.validTables = true := by
  unfold ProfileState.process at due
  split at due
  · cases due
  · next valid => simpa using valid

/-- **The publication of an expiry with a recovery.** A channel that shows an available reading
then owes every active slot a notice of both. -/
theorem owed_after_publish (isValid : RawCanFrame → Bool) {r : RuntimeState κ} (sound : r.Sound)
    (running : r.notifications.running = true) (valid : r.provider.validTables = true)
    {index : ℕ} (within : index < r.notifications.channelCount)
    {result : ProviderProcessResult}
    (due : (r.notifications.channels index).id ∈ result.due)
    (recovered : (r.notifications.channels index).id ∈ result.recovered)
    (shown : available (r.notifications.channels index).channel.current = true)
    (back : ∀ reading, r.provider.read (r.notifications.channels index).id nowUs = .ok reading →
      available reading = true) :
    let r' := (r.step isValid (.publish result nowUs)).1
    ∃ reading, r.provider.read (r.notifications.channels index).id nowUs = .ok reading ∧
      r'.notifications.running = true ∧
      r'.notifications.channelCount = r.notifications.channelCount ∧
      (r'.notifications.channels index).channel.running = true ∧
      (r'.notifications.channels index).registrations =
        (r.notifications.channels index).registrations ∧
      ∀ slot, ((r.notifications.channels index).registrations slot).active = true →
        ((r'.notifications.channels index).channel.subscribers slot).Owed ∧
        ((r'.notifications.channels index).channel.subscribers slot).pendingNotice.current =
          reading := by
  obtain ⟨readable, period⟩ := sound.channels index shown
  obtain ⟨reading, read⟩ := readable nowUs
  have live := sound.running running index within
  obtain ⟨live', -, slots⟩ := publish_recovery live shown (period live) (back reading read)
  have bound : (r.notifications.channels index).publishResult result (r.readings nowUs) =
      { r.notifications.channels index with
        channel := (((r.notifications.channels index).channel.publish
          { (r.notifications.channels index).channel.current with
            availability := .stale }).1.publish reading).1 } := by
    unfold NotificationChannelBinding.publishResult
    simp only [due, recovered, shown, decide_true, Bool.not_true, Bool.false_and,
      Bool.false_eq_true, if_false, Bool.and_self, if_true]
    rw [show r.readings nowUs (r.notifications.channels index).id = .ok reading from read]
  have published : (r.step isValid (.publish result nowUs)).1.notifications =
      r.notifications.mapChannels (·.publishResult result (r.readings nowUs)) := by
    show r.notifications.publish r.provider result (r.readings nowUs) = _
    unfold publish
    rw [valid, running]
    rfl
  refine ⟨reading, read, ?_⟩
  rw [published, channels_mapChannels, if_pos within, bound]
  exact ⟨running, rfl, live', rfl, fun slot active =>
    slots slot ((sound.consistent.inStep index slot).active.trans active)⟩

end Publication

/-! ### One report for each expiry -/

/-- A call stores a sample of a signal. -/
def commits (isValid : RawCanFrame → Bool) (id : SignalId) : ProfileState × ProviderCall → Bool
  | (s, .process frame _) =>
    s.validTables && accepts isValid s frame id && (decodeOf isValid s.tables frame id).join.isSome
  | _ => false

/-- A call reports the expiry of a signal. -/
def reportsDue (isValid : RawCanFrame → Bool) (id : SignalId)
    (move : ProfileState × ProviderCall) : Bool :=
  decide (id ∈ (move.1.step isValid move.2).2.due)

/-- The time at which a call looks for samples that expired. -/
def ProviderCall.serviceTime : ProviderCall → Option MonotonicTimestamp
  | .process _ nowUs | .service nowUs | .fault nowUs => some nowUs
  | .reset _ => none

/-- No expiry of the sample is left to report. -/
def SignalState.spent (sample : SignalState) : Bool :=
  !sample.hasValue || sample.invalid || sample.dueReported

theorem SignalState.due_eq_false (quiet : sample.spent = true) (policy : SignalFreshnessPolicy)
    (nowUs : MonotonicTimestamp) : sample.due policy nowUs = false := by
  unfold spent at quiet
  unfold due
  cases hvalue : sample.hasValue <;> cases hinvalid : sample.invalid <;>
    cases hreported : sample.dueReported <;> simp_all

theorem SignalState.spent_reported (policy : Option SignalFreshnessPolicy)
    (nowUs : MonotonicTimestamp)
    (h : sample.spent = true ∨ (policy.any fun policy => sample.due policy nowUs) = true) :
    (sample.reported policy nowUs).spent = true := by
  unfold reported
  split
  · simp [spent]
  · next quiet => exact h.resolve_right quiet

section Samples

variable {s : ProfileState} {id : SignalId} (wellFormed : tableWellFormed s.tables)
  (valid : s.validTables = true) (known : (s.tables.catalog.find id).isSome = true)
include valid known

theorem signal_service (nowUs : MonotonicTimestamp) :
    (s.service nowUs).1.signal id = (s.signal id).reported (freshnessFor s.tables id) nowUs := by
  have tables := tables_of_profile
    (profile_step (fun _ => false) s (.service nowUs))
  show (s.service nowUs).1.signals (signalIndex (s.service nowUs).1.tables id) = _
  rw [show (s.service nowUs).1.tables = s.tables from tables]
  unfold ProfileState.service
  rw [valid, Bool.not_true, if_neg Bool.false_ne_true, serviceDueLocked_signals,
    s.slotPolicy_signalIndex known]
  rfl

theorem spent_fault (nowUs : MonotonicTimestamp) : ((s.fault nowUs).1.signal id).spent = true := by
  obtain ⟨metadata, hmetadata⟩ := Option.isSome_iff_exists.mp known
  have core := @ProfileState.fault_signal s nowUs valid _ (signalIndex_spec hmetadata).1
  have invalid : ((s.fault nowUs).1.signals (signalIndex s.tables id)).invalid = true :=
    congrArg SignalState.invalid core
  have tables := tables_of_profile
    (profile_step (fun _ => false) s (.fault nowUs))
  unfold ProfileState.signal SignalState.spent
  rw [show (s.fault nowUs).1.tables = s.tables from tables, invalid, Bool.or_true, Bool.true_or]

theorem spent_reset (nowUs : MonotonicTimestamp) : ((s.reset nowUs).1.signal id).spent = true := by
  obtain ⟨metadata, hmetadata⟩ := Option.isSome_iff_exists.mp known
  have tables := tables_of_profile
    (profile_step (fun _ => false) s (.reset nowUs))
  unfold ProfileState.signal
  rw [show (s.reset nowUs).1.tables = s.tables from tables,
    ProfileState.reset_signal valid (signalIndex_spec hmetadata).1]
  rfl

include wellFormed

theorem reportsDue_iff (call : ProviderCall) : reportsDue isValid id (s, call) = true ↔
    ∃ nowUs, call.serviceTime = some nowUs ∧ s.expires nowUs id = true := by
  rw [reportsDue, decide_eq_true_iff,
    (@completeLists_step isValid s wellFormed valid call).due.complete]
  cases call <;> simp [dueIn, ProviderCall.serviceTime, known]

/-- A call that stores no sample leaves nothing to report where nothing was left, or where it
reports the expiry itself. -/
theorem spent_step {call : ProviderCall} (kept : commits isValid id (s, call) = false)
    (h : (s.signal id).spent = true ∨ reportsDue isValid id (s, call) = true) :
    ((s.step isValid call).1.signal id).spent = true := by
  have served : ∀ nowUs, call.serviceTime = some nowUs →
      ((s.signal id).reported (freshnessFor s.tables id) nowUs).spent = true := by
    intro nowUs time
    refine SignalState.spent_reported _ _ (h.imp_right fun due => ?_)
    obtain ⟨atUs, time', due⟩ := (reportsDue_iff wellFormed valid known call).mp due
    obtain rfl := Option.some.inj (time.symm.trans time')
    exact due
  cases call with
  | process frame nowUs =>
    show ((s.process isValid frame nowUs).1.signal id).spent = true
    rw [signal_process isValid frame nowUs wellFormed valid known]
    have spent := served nowUs rfl
    have taken := SignalState.updateWatermark_reported nowUs (freshnessFor s.tables id)
      (s.signal id) frame.timestampUs
    generalize (s.signal id).reported (freshnessFor s.tables id) nowUs = sample at spent taken
    unfold commits accepts at kept
    dsimp only at kept
    rw [valid, Bool.true_and, ← taken] at kept
    unfold SignalState.deliver
    split
    · simp [SignalState.spent]
    · next hdecode hraised => simp [hdecode, hraised] at kept
    · exact spent
  | service nowUs =>
    show ((s.service nowUs).1.signal id).spent = true
    rw [signal_service valid known]
    exact served nowUs rfl
  | fault nowUs => exact spent_fault valid known nowUs
  | reset nowUs => exact spent_reset valid known nowUs

theorem not_reportsDue_of_spent (spent : (s.signal id).spent = true) (call : ProviderCall) :
    reportsDue isValid id (s, call) = false := by
  refine Bool.eq_false_iff.mpr fun due => ?_
  obtain ⟨nowUs, -, expires⟩ := (reportsDue_iff wellFormed valid known call).mp due
  unfold ProfileState.expires at expires
  rw [Option.any_eq_true] at expires
  obtain ⟨policy, -, due⟩ := expires
  rw [SignalState.due_eq_false spent] at due
  cases due

/-- A call without a stamp leaves the sample as it is, and notes the report of its expiry. -/
theorem held_step {call : ProviderCall} (kept : stamp isValid id (s, call) = none) :
    let sample := (s.step isValid call).1.signal id
    sample.core = (s.signal id).core ∧
      sample.dueReported =
        ((s.signal id).dueReported || reportsDue isValid id (s, call)) := by
  have served : ∀ nowUs, call.serviceTime = some nowUs →
      ((s.signal id).reported (freshnessFor s.tables id) nowUs).core = (s.signal id).core ∧
      ((s.signal id).reported (freshnessFor s.tables id) nowUs).dueReported =
        ((s.signal id).dueReported || reportsDue isValid id (s, call)) := by
    intro nowUs time
    have due : reportsDue isValid id (s, call) = s.expires nowUs id := by
      rw [Bool.eq_iff_iff, reportsDue_iff wellFormed valid known, time]
      simp
    rw [due]
    unfold SignalState.reported ProfileState.expires
    split
    · next expired => exact ⟨rfl, by rw [expired, Bool.or_true]⟩
    · next quiet => exact ⟨rfl, by rw [Bool.eq_false_iff.mpr quiet, Bool.or_false]⟩
  cases call with
  | process frame nowUs =>
    show ((s.process isValid frame nowUs).1.signal id).core = _ ∧ _
    have untouched : (s.process isValid frame nowUs).1.signal id =
        (s.signal id).reported (freshnessFor s.tables id) nowUs := by
      rw [signal_process isValid frame nowUs wellFormed valid known]
      have taken := SignalState.updateWatermark_reported nowUs (freshnessFor s.tables id)
        (s.signal id) frame.timestampUs
      unfold stamp accepts at kept
      dsimp only at kept
      rw [← taken] at kept
      unfold SignalState.deliver
      split
      · next hdecode hraised => simp [hdecode, hraised] at kept
      · next hdecode hraised => simp [hdecode, hraised] at kept
      · rfl
    have := served nowUs rfl
    rw [← untouched] at this
    exact this
  | service nowUs =>
    have := served nowUs rfl
    rw [← signal_service valid known] at this
    exact this
  | fault nowUs => cases kept
  | reset nowUs => cases kept

end Samples

section Counts

variable {s : ProfileState} {id : SignalId}

/-- Between two samples, the expiry of the first is reported at most once. -/
theorem countP_reportsDue_le (wellFormed : tableWellFormed s.tables)
    (valid : s.validTables = true) (known : (s.tables.catalog.find id).isSome = true)
    (calls : List ProviderCall) (last : ProviderCall)
    (kept : ∀ move ∈ Machine.moves (ProfileState.step isValid) s calls,
      commits isValid id move = false) :
    let reports := (Machine.moves (ProfileState.step isValid) s (calls ++ [last])).countP
      (reportsDue isValid id)
    reports ≤ 1 ∧ ((s.signal id).spent = true → reports = 0) := by
  induction calls generalizing s with
  | nil =>
    refine ⟨List.countP_le_length, fun spent => ?_⟩
    have silent := @not_reportsDue_of_spent isValid s id wellFormed valid known spent last
    simp [Machine.moves, silent]
  | cons call calls ih =>
    have tables := tables_of_profile (profile_step isValid s call)
    have check : (s.step isValid call).1.validTables = s.validTables :=
      congrArg Prod.snd (profile_step isValid s call)
    have here : commits isValid id (s, call) = false := kept _ List.mem_cons_self
    obtain ⟨few, none_left⟩ := ih (s := (s.step isValid call).1) (tables ▸ wellFormed)
      (check.trans valid) (tables ▸ known) fun move mem => kept move (List.mem_cons_of_mem _ mem)
    have split : (Machine.moves (ProfileState.step isValid) s (call :: calls ++ [last])).countP
        (reportsDue isValid id) = (Machine.moves (ProfileState.step isValid)
          (s.step isValid call).1 (calls ++ [last])).countP (reportsDue isValid id) +
            if reportsDue isValid id (s, call) then 1 else 0 := List.countP_cons
    have after := @spent_step isValid s id wellFormed valid known call here
    rw [split]
    cases due : reportsDue isValid id (s, call) with
    | true =>
      refine ⟨by rw [none_left (after (.inr due))]; rfl, fun spent => ?_⟩
      rw [not_reportsDue_of_spent wellFormed valid known spent] at due
      cases due
    | false => exact ⟨few, fun spent => none_left (after (.inl spent))⟩

/-- A call past the deadline of a sample that is still held finds its expiry reported, or reports
it. -/
theorem countP_reportsDue_pos (wellFormed : tableWellFormed s.tables)
    (valid : s.validTables = true) (known : (s.tables.catalog.find id).isSome = true)
    {calls : List ProviderCall} {last : ProviderCall}
    (kept : ∀ move ∈ Machine.moves (ProfileState.step isValid) s calls,
      stamp isValid id move = none)
    (hasValue : (s.signal id).hasValue = true) (usable : (s.signal id).invalid = false)
    (fresh : (s.signal id).dueReported = false) {policy : SignalFreshnessPolicy}
    (hpolicy : freshnessFor s.tables id = some policy) (declared : policy.declared = true)
    {nowUs : MonotonicTimestamp} (time : last.serviceTime = some nowUs)
    (late : freshnessDeadline (s.signal id).sampleTimestampUs policy < nowUs) :
    0 < (Machine.moves (ProfileState.step isValid) s (calls ++ [last])).countP
      (reportsDue isValid id) := by
  induction calls generalizing s with
  | nil =>
    have due : reportsDue isValid id (s, last) = true := by
      rw [reportsDue_iff wellFormed valid known]
      refine ⟨nowUs, time, ?_⟩
      unfold ProfileState.expires SignalState.due
      simp [hpolicy, declared, hasValue, usable, fresh, late]
    simp [Machine.moves, due]
  | cons call calls ih =>
    have tables := tables_of_profile (profile_step isValid s call)
    have check : (s.step isValid call).1.validTables = s.validTables :=
      congrArg Prod.snd (profile_step isValid s call)
    obtain ⟨core, reported⟩ := held_step wellFormed valid known
      (show stamp isValid id (s, call) = none from kept _ List.mem_cons_self)
    rw [show Machine.moves (ProfileState.step isValid) s (call :: calls ++ [last]) =
      (s, call) :: Machine.moves (ProfileState.step isValid) (s.step isValid call).1
        (calls ++ [last]) from rfl, List.countP_cons]
    cases due : reportsDue isValid id (s, call) with
    | true => exact Nat.succ_pos _
    | false =>
      rw [fresh, due] at reported
      have value := congrArg SignalState.hasValue core
      have invalid := congrArg SignalState.invalid core
      have timestamp := congrArg SignalState.sampleTimestampUs core
      exact ih (tables ▸ wellFormed) (check.trans valid) (tables ▸ known)
        (fun move mem => kept move (List.mem_cons_of_mem _ mem)) (value.trans hasValue)
        (invalid.trans usable) reported (tables ▸ hpolicy)
        (by rw [show ((s.step isValid call).1.signal id).sampleTimestampUs =
          (s.signal id).sampleTimestampUs from timestamp]; exact late)

/-- A call that stores a sample moves the watermark. -/
theorem commits_of_stamp {move : ProfileState × ProviderCall}
    (still : stamp isValid id move = none) : commits isValid id move = false := by
  obtain ⟨s, call⟩ := move
  cases call with
  | process frame nowUs =>
    have refused : accepts isValid s frame id = false := by
      cases taken : accepts isValid s frame id with
      | false => rfl
      | true => simp [stamp, taken] at still
    simp [commits, refused]
  | _ => rfl

/-- **The expiry of a sample is reported once**: no two calls after a frame that stored the sample
report it, as long as no other sample is stored before the second; and where nothing moves the
signal in between, a call past the deadline finds it reported, or reports it. -/
theorem reported_once (wellFormed : s.validTables = true → tableWellFormed s.tables)
    {nowUs : MonotonicTimestamp} (stored : commits isValid id (s, .process frame nowUs) = true)
    (calls : List ProviderCall) (last : ProviderCall) : let s' := (s.process isValid frame nowUs).1
    let moves := Machine.moves (ProfileState.step isValid) s' calls
    let reports := (Machine.moves (ProfileState.step isValid) s' (calls ++ [last])).countP
      (reportsDue isValid id)
    ((∀ move ∈ moves, commits isValid id move = false) → reports ≤ 1) ∧
      ((∀ move ∈ moves, stamp isValid id move = none) →
        ∀ policy, freshnessFor s.tables id = some policy → policy.declared = true →
          ∀ laterUs, last.serviceTime = some laterUs →
            freshnessDeadline frame.timestampUs policy < laterUs → reports = 1) := by
  intro s' moves reports
  obtain ⟨stored, value⟩ := Bool.and_eq_true_iff.mp stored
  obtain ⟨valid, taken⟩ := Bool.and_eq_true_iff.mp stored
  have wellFormed := wellFormed valid
  have known := known_of_accepts wellFormed taken
  have profile := profile_process isValid s frame nowUs
  have tables := tables_of_profile profile
  have check : s'.validTables = s.validTables := congrArg Prod.snd profile
  have most : (∀ move ∈ moves, commits isValid id move = false) → reports ≤ 1 := fun kept =>
    (countP_reportsDue_le (tables ▸ wellFormed) (check.trans valid) (tables ▸ known) calls last
      kept).1
  refine ⟨most, fun kept policy hpolicy declared laterUs time late => ?_⟩
  refine Nat.le_antisymm (most fun move mem => commits_of_stamp (kept move mem)) ?_
  have watermark := (Bool.and_eq_true_iff.mp taken).2
  cases hdecode : decodeOf isValid s.tables frame id with
  | none => simp [hdecode] at value
  | some decode =>
    cases decode with
    | none => simp [hdecode] at value
    | some sample =>
      have slot := signal_process isValid frame nowUs wellFormed valid known
      rw [hdecode] at slot
      obtain ⟨hasValue, invalid, reported, timestamp⟩ := SignalState.deliver_commit sample
        ((SignalState.updateWatermark_reported nowUs (freshnessFor s.tables id) (s.signal id)
          frame.timestampUs).trans watermark)
      rw [← slot] at hasValue invalid reported timestamp
      exact countP_reportsDue_pos (tables ▸ wellFormed) (check.trans valid) (tables ▸ known) kept
        hasValue invalid reported (tables ▸ hpolicy) declared time (timestamp ▸ late)

end Counts

/-! ### Every run -/

section Runs

variable {r : RuntimeState κ}

/-- The calls of a run that reach the provider, each with the state that it met. -/
def providerMoves (moves : List (RuntimeState κ × RuntimeCall κ)) :
    List (ProfileState × ProviderCall) :=
  moves.filterMap fun move =>
    match move.2 with
    | .provider call => some (move.1.provider, call)
    | _ => none

def RuntimeCall.provider? : RuntimeCall κ → Option ProviderCall
  | .provider call => some call
  | _ => none

/-- A call on the notifications does not reach the provider. -/
theorem provider_step (r : RuntimeState κ) (call : RuntimeCall κ) :
    (r.step isValid call).1.provider =
      Machine.after (ProfileState.step isValid) r.provider call.provider?.toList := by
  cases call with
  | stop =>
    unfold RuntimeState.step
    dsimp only
    split <;> rfl
  | _ => rfl

/-- The provider runs on its own. -/
theorem providerMoves_moves (isValid : RawCanFrame → Bool) (r : RuntimeState κ)
    (calls : List (RuntimeCall κ)) :
    providerMoves (Machine.moves (RuntimeState.step isValid) r calls) =
      Machine.moves (ProfileState.step isValid) r.provider
        (calls.filterMap RuntimeCall.provider?) := by
  induction calls generalizing r with
  | nil => rfl
  | cons call calls ih =>
    have rest := ih (r.step isValid call).1
    rw [provider_step] at rest
    rw [show Machine.moves (RuntimeState.step isValid) r (call :: calls) =
      (r, call) :: Machine.moves (RuntimeState.step isValid) (r.step isValid call).1 calls from rfl]
    cases call with
    | provider call => exact congrArg ((r.provider, call) :: ·) rest
    | _ => exact rest

theorem provider_quiet {calls : List (RuntimeCall κ)}
    (quiet : ∀ call ∈ calls, call.quiet = true) :
    (Machine.after (RuntimeState.step isValid) r calls).provider = r.provider := by
  refine List.foldlRecOn (motive := fun r' : RuntimeState κ => r'.provider = r.provider) _ _ rfl
    fun r' same call mem => ?_
  rw [provider_step, same]
  have := quiet call mem
  cases call <;> first | rfl | cases this

/-- One complete dispatch of a channel for each of its slots. -/
def fullChannelPass (κ : Type) (index : ℕ) : List (RuntimeCall κ) :=
  [.dispatchOne index, .callbackReturned index, .dispatchOne index, .callbackReturned index]

/-- A full pass of a channel, where no dispatch of it is in progress, serves every slot. -/
theorem fullChannelPass_serves {index : ℕ} (within : index < r.notifications.channelCount)
    (running : (r.notifications.channels index).channel.running = true)
    (idle : (r.notifications.channels index).channel.callbackActive = false)
    (free : (r.notifications.channels index).channel.dispatching = false) (slot : Slot) :
    ((Machine.after (RuntimeState.step isValid) r (fullChannelPass κ index)).notifications.channels
      index).channel.isPending slot = false := by
  have dispatch : ∀ r : RuntimeState κ, index < r.notifications.channelCount →
      let r' := Machine.after (RuntimeState.step isValid) r
        [.dispatchOne index, .callbackReturned index]
      (r'.notifications.channels index).channel =
          (r.notifications.channels index).channel.dispatchOne.1.callbackReturned ∧
        index < r'.notifications.channelCount := by
    intro r within
    have first : r.notifications.dispatchOne index = (r.notifications.setChannel index
        { r.notifications.channels index with
          channel := (r.notifications.channels index).channel.dispatchOne.1 },
        (r.notifications.channels index).channel.dispatchOne.2.toOption) := by
      unfold dispatchOne
      rw [if_neg (Nat.not_le.mpr within)]
    show ((callbackReturned (r.notifications.dispatchOne index).1
      index).channels index).channel = _ ∧
        index < (callbackReturned (r.notifications.dispatchOne index).1
          index).channelCount
    rw [first]
    unfold callbackReturned
    rw [if_neg (show ¬(r.notifications.setChannel index _).channelCount ≤ index from
      Nat.not_le.mpr within)]
    rw [channels_setChannel, if_pos rfl, channels_setChannel, if_pos rfl]
    exact ⟨rfl, within⟩
  obtain ⟨first, within'⟩ := dispatch r within
  obtain ⟨second, -⟩ := dispatch _ within'
  rw [show fullChannelPass κ index = [.dispatchOne index, .callbackReturned index] ++
    [.dispatchOne index, .callbackReturned index] from rfl, Machine.after_append, second, first]
  exact fullPass_serves runtimeChannelId running idle free slot

end Runs

/-- **A recovery through a timeout is seen, and every expiry is reported once.** In every run: let
a frame make a signal usable again in the call that reports its expiry, let only subscribers and
dispatches call before the result is published, at the time of the call, and let the channel of the
signal then show an available reading. Then the signal can be read, every active subscriber's next
notice tells of the loss and of the recovery, whatever is called before it comes except for a stop,
and dispatches deliver that notice alone, with what was read; where no dispatch of the channel is
in progress, a full pass delivers it. And after a frame that stores a sample, no two calls report
its expiry as long as no other sample is stored, and where nothing moves the signal a call past
the deadline finds the expiry reported or reports it. -/
theorem recovery_seen (isValid : RawCanFrame → Bool) (tables : ProfileTables)
    (synchronizationWellFormed : Bool) (calls : List (RuntimeCall κ)) (frame : RawCanFrame)
    (nowUs : MonotonicTimestamp) (id : SignalId) :
    let step := RuntimeState.step isValid
    let r := Machine.after step (.create κ tables synchronizationWellFormed) calls
    let result := (r.provider.process isValid frame nowUs).2
    let processed := (r.step isValid (.provider (.process frame nowUs))).1
    (∀ between : List (RuntimeCall κ), (∀ call ∈ between, call.quiet = true) →
      let q := Machine.after step processed between
      let published := (q.step isValid (.publish result nowUs)).1
      q.notifications.running = true → ∀ index < q.notifications.channelCount,
        (q.notifications.channels index).id = id → id ∈ result.due → id ∈ result.recovered →
        available (q.notifications.channels index).channel.current = true →
        ∃ reading, q.provider.read id nowUs = .ok reading ∧ ∀ slot,
          ((q.notifications.channels index).registrations slot).active = true →
          (∀ later, (∀ call ∈ later, call ≠ .stop) → ∀ notice,
            (deliveredNotices index slot (Machine.trace step published later)).head? = some notice →
              notice.becameUnavailable = true ∧ notice.recovered = true) ∧
          (∀ later, (∀ call ∈ later, call.quiet = true) →
            ((Machine.after step published later).notifications.channels
              index).channel.isPending slot = false →
            ∃ notice, deliveredNotices index slot (Machine.trace step published later) = [notice] ∧
              notice.becameUnavailable = true ∧ notice.recovered = true ∧
              notice.current = reading) ∧
          ((published.notifications.channels index).channel.callbackActive = false →
            (published.notifications.channels index).channel.dispatching = false →
            ((Machine.after step published (fullChannelPass κ index)).notifications.channels
              index).channel.isPending slot = false)) ∧
    (commits isValid id (r.provider, .process frame nowUs) = true →
      ∀ (later : List (RuntimeCall κ)) (last : ProviderCall),
        let moves := providerMoves (Machine.moves step processed later)
        let reports := (providerMoves (Machine.moves step processed
          (later ++ [.provider last]))).countP (reportsDue isValid id)
        ((∀ move ∈ moves, commits isValid id move = false) → reports ≤ 1) ∧
        ((∀ move ∈ moves, stamp isValid id move = none) →
          ∀ policy, freshnessFor tables id = some policy → policy.declared = true →
            ∀ laterUs, last.serviceTime = some laterUs →
              freshnessDeadline frame.timestampUs policy < laterUs → reports = 1)) := by
  intro step r result processed
  have sound : r.Sound := RuntimeState.sound_after
    (RuntimeState.sound_create κ tables synchronizationWellFormed) calls
  have profile : r.provider.profile =
      (ProfileState.create tables synchronizationWellFormed).profile :=
    RuntimeState.profile_after _ calls
  have known := tables_of_profile profile
  have wellFormed : r.provider.validTables = true → tableWellFormed r.provider.tables := by
    intro valid
    have check : r.provider.validTables = (decide (tableWellFormed tables) &&
      synchronizationWellFormed) := congrArg Prod.snd profile
    rw [check, Bool.and_eq_true, decide_eq_true_iff] at valid
    rw [known]
    exact valid.1
  have sound' : processed.Sound := RuntimeState.sound_step sound _
  refine ⟨?_, fun stored later last => ?_⟩
  · intro between quiet q published running index within here due recovered shown
    subst here
    have valid := valid_of_due due
    have provider : q.provider = (r.provider.process isValid frame nowUs).1 := provider_quiet quiet
    have recovers := (process_lists isValid frame nowUs (wellFormed valid) valid).2.2.1 _ |>.mp
      recovered
    have check : q.provider.validTables = true := by
      rw [provider]
      exact (congrArg Prod.snd (profile_process isValid _ frame nowUs)).trans valid
    have soundq : q.Sound := RuntimeState.sound_after sound' between
    obtain ⟨reading, read, running', count, live, registrations, owed⟩ :=
      owed_after_publish isValid soundq running check within due recovered shown
        fun reading read => available_of_recovers (wellFormed valid) valid recovers
          (provider ▸ read)
    have within' : index < published.notifications.channelCount := by
      rw [count]
      exact within
    have soundp : published.Sound := RuntimeState.sound_step soundq _
    refine ⟨reading, read, fun slot active => ?_⟩
    obtain ⟨owes, carries⟩ := owed slot active
    refine ⟨fun later kept notice next => ?_, fun later quiet idle => ?_, fun idle free =>
      fullChannelPass_serves within' live idle free slot⟩
    · obtain ⟨moves, seen, -⟩ := channel_run isValid soundp running' within' kept
      rw [seen.notices slot] at next
      exact owed_delivered runtimeChannelId live owes seen.kept next
    · have kept : ∀ call ∈ later, call ≠ .stop := by
        rintro _ mem rfl
        cases quiet _ mem
      obtain ⟨moves, seen, dispatches⟩ := channel_run isValid soundp running' within' kept
      have conserved := notices_conserved runtimeChannelId
        (published.notifications.channels index).channel (dispatches quiet) slot
      have still := (active_run runtimeChannelId live seen.kept).2 slot
      rw [← seen.channel, show ((published.notifications.channels index).channel.subscribers
        slot).active = true from owes.active] at still
      rw [← seen.notices slot, ← seen.channel] at conserved
      have taken : (((Machine.after step published later).notifications.channels
          index).channel.subscribers slot).pending = false := by
        rw [Channel.isPending, show (((Machine.after step published later).notifications.channels
          index).channel.subscribers slot).active = true from still, Bool.true_and] at idle
        exact idle
      rw [show (((Machine.after (RuntimeState.step isValid) published later).notifications.channels
          index).channel.subscribers slot).pendingNotice? = none from
            if_neg (by rw [taken]; decide),
        show ((published.notifications.channels index).channel.subscribers slot).pendingNotice? =
          some _ from if_pos owes.pending] at conserved
      exact ⟨_, (List.append_nil _).symm.trans conserved, owes.lost, owes.regained, carries⟩
  · have once := reported_once wellFormed stored (later.filterMap RuntimeCall.provider?) last
    have split : providerMoves (Machine.moves step processed (later ++ [.provider last])) =
        Machine.moves (ProfileState.step isValid) (r.provider.process isValid frame nowUs).1
          (later.filterMap RuntimeCall.provider? ++ [last]) := by
      rw [providerMoves_moves, List.filterMap_append]
      rfl
    rw [split, show providerMoves (Machine.moves step processed later) = _ from
      providerMoves_moves isValid processed later]
    rw [known] at once
    exact once

/-- The profile of one lamp, with notices. -/
def notifyingLamp : ProfileTables :=
  { lampProfile with
    catalog := [{ id := ⟨1⟩, key := [0x6c], capabilities := { read := true, notify := true } }] }

/-- A lamp that was lit, and lit again after its timeout: the subscriber is told in one notice. -/
theorem recovery_seen_lamp :
    let lit : RawCanFrame := { timestampUs := 10, identifier := 0x201, dlc := 1,
                               data := #v[1, 0, 0, 0, 0, 0, 0, 0] }
    let step := RuntimeState.step fun _ => true
    let r : RuntimeState Unit := Machine.after step (.create Unit notifyingLamp true)
      [.subscribe ⟨1⟩ (some ()) true, .start 0, .provider (.process lit 11),
        .publish { status := .applied, changed := [⟨1⟩] } 11]
    let again := { lit with timestampUs := 300000 }
    let processed := (r.step (fun _ => true) (.provider (.process again 300000))).1
    let published := (processed.step (fun _ => true)
      (.publish (r.provider.process (fun _ => true) again 300000).2 300000)).1
    ∃ reading notice, processed.provider.read ⟨1⟩ 300000 = .ok reading ∧
      deliveredNotices 0 ⟨0, by decide⟩ (Machine.trace step published
        (fullChannelPass Unit 0)) = [notice] ∧
      notice.becameUnavailable = true ∧ notice.recovered = true ∧ notice.current = reading := by
  intro lit step r again processed published
  obtain ⟨reading, read, told⟩ := (recovery_seen (fun _ => true) notifyingLamp true
    [.subscribe ⟨1⟩ (some ()) true, .start 0, .provider (.process lit 11),
      .publish { status := .applied, changed := [⟨1⟩] } 11] again 300000 ⟨1⟩).1 []
    (by decide) (by decide) 0 (by decide) (by decide) (by decide) (by decide) (by decide)
  obtain ⟨-, alone, -⟩ := told ⟨0, by decide⟩ (by decide)
  obtain ⟨notice, delivered, lost, regained, current⟩ := alone (fullChannelPass Unit 0)
    (by decide) (by decide)
  exact ⟨reading, notice, read, delivered, lost, regained, current⟩

end AccessoryController.ProfileRuntime
