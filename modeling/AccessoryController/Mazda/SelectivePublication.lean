import AccessoryController.Mazda.Telemetry
import Mathlib.Data.List.TakeWhile
import AccessoryController.VehicleCore.DocumentedSlot

/-!
# Selective publication refines full publication

The runtime drives the service by a discipline: each received frame is followed by exactly one
report, its clock never runs backwards, and its transport recovers only into a live one while the
service runs. Under that discipline every channel shows, after every report, the reading that a
publication of all channels would have given it, and the snapshot is the processing state, although
most reports publish only a few channels and copy nothing.

Between two reports a channel is clean unless a frame of its message has arrived. A clean channel
keeps its slot and the record of its message; its reading could move only with the transport, which
is a global transition, or with the clock past its deadline, which is serviced once.

## Main definitions

* `Runtime`: where the runtime stands in its discipline
* `Runtime.admits`: the calls the discipline allows
* `Synced`: what holds of the service between two calls

## Main results

* `visitDescriptors_shows`: a selective publication shows every reading
* `Synced.step`: every admitted call keeps the service synced
* `selective_publication`: after every report all channels and the snapshot are current
-/

namespace AccessoryController.Mazda

open VehicleCore
open VehicleCore.SignalSlots
open SignalNotification

/-! ## Publishing on a channel -/

variable {T : Type} {shownUs : MonotonicTimestamp} {frame : RawCanFrame}
  {transport : TransportHealth} {nowUs : MonotonicTimestamp} {affected : Option ℕ}
  {globalHealthTransition : Bool}

section Channels

variable {κ : Type}

/-- Publication makes a reading the current one. -/
theorem current_publish [DecidableEq T] {channel : Channel T κ} (running : channel.running = true)
    (reading : Reading T) : (channel.publish reading).1.current = reading := by
  rw [Channel.publish, running]
  simp only [Bool.not_true, Bool.false_eq_true, if_false]
  split
  next same =>
    simp only [sameReading, Bool.and_eq_true, beq_iff_eq] at same
    obtain ⟨⟨hvalue, havailability⟩, hvalidation⟩ := same
    cases hcurrent : channel.current
    cases reading
    simp_all
  · rfl

/-- Publication leaves a channel running. -/
theorem running_publish [DecidableEq T] (channel : Channel T κ) (reading : Reading T) :
    (channel.publish reading).1.running = channel.running := by
  rw [Channel.publish]
  repeat' split
  all_goals rfl

/-- Publishing the current reading again changes nothing. -/
theorem publish_current [DecidableEq T] {channel : Channel T κ} (running : channel.running = true) :
    (channel.publish channel.current).1 = channel := by
  have hsame : sameReading channel.current channel.current = true := by simp [sameReading]
  rw [Channel.publish, running, hsame]
  rfl

/-- A call by a subscriber or by the dispatcher. -/
def SubscriberCall {T : Type} : SignalNotification.Call T κ → Prop
  | .start | .stop | .publish _ => False
  | _ => True

/-- What subscribers and the dispatcher do to a channel leaves what it shows. -/
theorem channel_step_shows [DecidableEq T] (number : ℕ) (channel : Channel T κ)
    (call : SignalNotification.Call T κ) (admitted : SubscriberCall call) :
    (channel.step number call).1.current = channel.current ∧
      (channel.step number call).1.running = channel.running := by
  cases call with
  | start | stop | publish reading => exact admitted.elim
  | subscribe callback =>
    dsimp only [Channel.step, Channel.subscribe, Prod.map]
    repeat' split
    all_goals exact ⟨rfl, rfl⟩
  | unsubscribe handle =>
    dsimp only [Channel.step, Channel.unsubscribe, Prod.map]
    repeat' split
    all_goals exact ⟨rfl, rfl⟩
  | dispatchOne =>
    dsimp only [Channel.step, Channel.dispatchOne, Prod.map]
    repeat' split
    all_goals exact ⟨rfl, rfl⟩
  | callbackReturned => exact ⟨rfl, rfl⟩

/-- A channel that lets itself be started runs. -/
theorem running_start {channel : Channel T κ} (started : channel.start.2 = .ok) :
    channel.start.1.running = true := by
  rw [Channel.start] at started ⊢
  by_cases busy : (channel.callbackActive || channel.running) = true
  · rw [if_pos busy] at started
    cases started
  · rw [if_neg busy]

end Channels

/-! ## Readings -/

/-- What a board of readings is computed from. -/
structure Evidence (Signal : Type → Type) [SignalSlots Signal] where
  state : VehicleState Signal
  transport : TransportHealth
  nowUs : MonotonicTimestamp

/-- The reading of a channel under some evidence. -/
def reading
    {Signal : Type → Type} [SignalSlots Signal] (channel : NotificationChannelId)
      (evidence : Evidence Signal) :
    Reading channel.Value :=
  Service.channelReading evidence.state evidence.transport evidence.nowUs channel

section Frames

variable {Signal : Type → Type} [SignalSlots Signal] [LawfulSignalSlots Signal]
  {isValid : RawCanFrame → Bool}

/-- A frame leaves the readings of the other messages and the marks. -/
theorem decode_clean {state : VehicleState Signal} {channel : NotificationChannelId}
    (other : channel.identifier ≠ frame.identifier) :
    reading channel ⟨(Candidate.decode isValid frame state).1, transport, shownUs⟩ =
      reading channel ⟨state, transport, shownUs⟩ := by
  have effect := Candidate.decode_effect isValid frame state
  simp only [reading, Service.channelReading, VehicleState.readingAt, VehicleState.messageStatus,
    effect.signal channel other, effect.health channel.identifier other]

/-- A frame that leaves the marker of its message changes nothing. -/
theorem decode_unmarked {state : VehicleState Signal}
    (unmarked : messageMutationMarker state frame.identifier =
      messageMutationMarker (Candidate.decode isValid frame state).1 frame.identifier) :
    (Candidate.decode isValid frame state).1 = state := by
  rcases (Candidate.decode_effect isValid frame state).moved with same | ⟨newer, new, hnew, htime⟩
  · exact same
  · rw [messageMutationMarker, messageMutationMarker, hnew, Option.map_some] at unmarked
    obtain ⟨old, hold, hsame⟩ := Option.map_eq_some_iff.mp unmarked
    have hlt := newer old hold
    rw [hsame, htime] at hlt
    exact absurd hlt (lt_irrefl _)

/-- An empty state holds no value. -/
theorem hasValue_empty (policy : VehicleFreshnessPolicy)
    (channel : NotificationChannelId) :
    hasValue ((VehicleState.applyFreshnessPolicy ({} : VehicleState Signal) policy).signal
      channel) = false := by
  have hslot (T : Type) [Inhabited T] (default timeout : Option Microseconds) :
      hasValue (setFreshnessTimeout (SignalSlots.construct default : Signal T) timeout) = false :=
    (LawfulSignalSlots.hasValue_setFreshnessTimeout _ _).trans
      (LawfulSignalSlots.hasValue_construct _)
  cases channel
  case selector => exact hslot SelectorPosition _ _
  case actualGear => exact hslot ActualGear _ _
  case turn => exact hslot TurnState _ _
  case frontWiper | testFrontWiper => exact hslot FrontWiperPosition _ _
  all_goals exact hslot Bool _ _

end Frames

/-! ## The discipline of the runtime -/

/-- The runtime calls nothing, may call next, or owes a report for a frame. -/
inductive RuntimePhase
  | idle | ready | processing
  deriving DecidableEq, Repr

/-- Where the runtime stands: its phase, the transport it reported last and the clock. -/
structure Runtime where
  phase : RuntimePhase := .idle
  transport : TransportHealth := .stopped
  clockUs : MonotonicTimestamp := 0
  deriving DecidableEq, Repr

/-- A clock reading that does not run backwards. -/
def Runtime.reads (runtime : Runtime) (nowUs : MonotonicTimestamp) : Prop :=
  runtime.clockUs ≤ nowUs ∧ nowUs ≤ maxTimestamp

/-- A transport that was down recovers only from a silence or a fault, only into a live one, and
only while the service runs. -/
def Recovers (previous : TransportHealth) (diagnostics : TransportDiagnostics) : Prop :=
  previous ≠ .stopped ∧ diagnostics.transport = .live ∧
    (diagnostics.lifecycle = .running ∨ diagnostics.lifecycle = .faulted)

/-- A start that the runtime refused is reported as refused. -/
theorem mapRuntimeStatus_ne_ok {status : RuntimeResultCode} (failed : status ≠ .ok) :
    mapRuntimeStatus status ≠ .ok := by
  cases status with
  | ok => exact absurd rfl failed
  | _ => nofun

variable {diagnostics : TransportDiagnostics} {dirty : NotificationChannelId → Prop}

/-- The transitions that are not global leave every reading up or down as it was. -/
theorem down_of_not_global {lifecycle previousLifecycle : LifecycleState}
    {previous : TransportHealth} {initialized : Bool}
    (runs : lifecycle = diagnostics.lifecycle.toService)
    (recovers : transportDown previous → ¬ transportDown diagnostics.transport →
      Recovers previous diagnostics)
    (notGlobal : requiresGlobalHealthEvaluation previousLifecycle previous lifecycle
      diagnostics.transport initialized = false) :
    transportDown previous ↔ transportDown diagnostics.transport := by
  have hglobal := notGlobal
  simp only [requiresGlobalHealthEvaluation] at hglobal
  split at hglobal
  · cases hglobal
  split at hglobal
  · cases hglobal
  next hfailure =>
    split at hglobal
    · cases hglobal
    next hrecovery =>
      constructor
      · intro hdown
        by_contra hup
        obtain ⟨hstopped, hlive, hlifecycle⟩ := recovers hdown hup
        rcases hdown with rfl | rfl | rfl
        · exact hstopped rfl
        all_goals
          rcases hlifecycle with hrunning | hfaulted
          · exact hrecovery (by simp [runs, hrunning, hlive, RuntimeLifecycle.toService])
          · exact hfailure (by simp [runs, hfaulted, hlive, RuntimeLifecycle.toService])
      · intro hdown
        by_contra hup
        have hchanged : diagnostics.transport ≠ previous := by
          rintro rfl
          exact hup hdown
        exact hfailure (by simp [hchanged, transportRequiresFailoff_iff.mpr hdown])

section Refinement

variable {Signal : Type → Type} [SignalSlots Signal] [Inhabited TransportDiagnostics]
  {κ : Type}

/-- The calls the discipline allows. Stopping waits until the runtime owes no report; a start in
between is refused. Subscribers and the dispatcher reach the channels at any time. -/
def Runtime.admits (runtime : Runtime) (service : Service Signal κ) : Call κ → Prop
  | .configure _ _ => runtime.phase = .idle
  | .bindLightingSink | .beginStop => True
  | .start inputs =>
    (runtime.phase = .processing → service.lifecycleState ≠ .stopped) ∧
      runtime.reads inputs.blackUs ∧ inputs.blackUs ≤ inputs.nowUs ∧ inputs.nowUs ≤ maxTimestamp
  | .finishStop _ => runtime.phase ≠ .processing
  | .process _ nowUs => runtime.phase = .ready ∧ runtime.reads nowUs
  | .onDiagnostics diagnostics nowUs _ =>
    runtime.phase ≠ .idle ∧ runtime.reads nowUs ∧
      (transportDown runtime.transport → ¬ transportDown diagnostics.transport →
        Recovers runtime.transport diagnostics)
  | .channel _ call => SubscriberCall call

/-- Where the runtime stands after a call. -/
def Runtime.next (runtime : Runtime) (service : Service Signal κ) : Call κ → Answer → Runtime
  | .start inputs, .result code =>
    if service.lifecycleState = .stopped ∧ service.config.valid then
      if code = .ok then
        { phase := .ready, transport := .awaitingTraffic, clockUs := inputs.nowUs }
      else { runtime with phase := .idle, clockUs := inputs.nowUs }
    else runtime
  | .finishStop _, _ => { runtime with phase := .idle }
  | .process _ nowUs, _ => { runtime with phase := .processing, clockUs := nowUs }
  | .onDiagnostics diagnostics nowUs _, _ =>
    { phase := .ready, transport := diagnostics.transport, clockUs := nowUs }
  | _, _ => runtime

/-- One call on the service under its runtime. -/
def System.step [Inhabited HealthObservation] (isValid : RawCanFrame → Bool)
    (system : Runtime × Service Signal κ)
    (call : Call κ) : (Runtime × Service Signal κ) × Answer :=
  let (service, answer) := system.2.step isValid call
  ((system.1.next system.2 call answer, service), answer)

/-- A service as constructed, before its runtime has done anything. -/
def System.construct (config : TelemetryConfig) (lightingSink : Bool) :
    Runtime × Service Signal κ :=
  ({}, .construct config lightingSink)

/-- Every call of the run is allowed where it is made. -/
def Admissible [Inhabited HealthObservation] (isValid : RawCanFrame → Bool)
    (system : Runtime × Service Signal κ)
    (calls : List (Call κ)) : Prop :=
  ∀ move ∈ Machine.moves (System.step isValid) system calls, move.1.1.admits move.1.2 move.2

/-! ## What holds between two calls -/

/-- The current readings of the channels. -/
def currents (service : Service Signal κ) (channel : NotificationChannelId) :
    Reading channel.Value :=
  (service.channels channel).current

/-- A channel whose deadline was serviced had passed it by then. -/
def MarksPassed (service : Service Signal κ) (state : VehicleState Signal)
    (nowUs : MonotonicTimestamp) : Prop :=
  ∀ channel serviced timeout, service.notificationDueObservations channel = some serviced →
    freshnessTimeoutUs (state.signal channel) = some timeout →
      saturatingAdd serviced timeout < nowUs

/-- What holds of a service whose runtime is not idle: its channels run and show their readings as
of some past time, except those of a message whose frame awaits its report. -/
structure Synced (runtime : Runtime) (service : Service Signal κ) : Prop where
  running : ∀ channel, (service.channels channel).running = true
  transport : service.publishedTransport = runtime.transport
  shown : ∃ shownUs ≤ runtime.clockUs,
    Board.ShowsOff reading
      (fun channel => service.pendingObservationIdentifier = some channel.identifier)
      ⟨service.processingState, runtime.transport, shownUs⟩ (currents service) ∧
    MarksPassed service service.processingState shownUs
  snapshot : service.processingStateChanged = false →
    service.publication.published.state = service.processingState
  report : runtime.phase = .ready → service.pendingObservationIdentifier = none ∧
    (service.runtimeDiagnostics.transport = runtime.transport ∨
      ∀ channel, hasValue (service.processingState.signal channel) = false)

/-- What holds of a service under its runtime. -/
structure Consistent (system : Runtime × Service Signal κ) : Prop where
  config : system.2.publication.config = system.2.config
  clock : system.1.clockUs ≤ maxTimestamp
  synced : system.1.phase ≠ .idle → Synced system.1 system.2

/-! ## A selective publication -/

section Publication

variable {service : Service Signal κ} {state : VehicleState Signal}

/-- A channel is due when its deadline has passed without having been serviced. -/
theorem due_iff {channel : NotificationChannelId} (catalogued : channel.id.valid) :
    service.notificationDescriptorDue state nowUs channel = true ↔
      Board.Passed (deadline (state.signal channel)) nowUs ∧
        service.notificationDueObservations channel ≠
          some (lastUpdateUs (state.signal channel)) := by
  rw [Service.notificationDescriptorDue, if_neg (not_not.mpr catalogued), deadline]
  cases hvalue : hasValue (state.signal channel) with
  | false => simp [Board.not_passed_none]
  | true =>
    cases htimeout : freshnessTimeoutUs (state.signal channel) with
    | none => simp [Board.not_passed_none]
    | some timeout =>
      simp only [Bool.not_true, Bool.false_eq_true, if_false, if_true, Option.map_some,
        Board.passed_some]
      by_cases hlate : nowUs ≤ saturatingAdd (lastUpdateUs (state.signal channel)) timeout
      · simp [hlate, not_lt.mpr hlate]
      · simp [hlate, not_le.mp hlate]

/-- A serviced channel has passed the deadline of the observation it was serviced for. -/
theorem MarksPassed.passed {channel : NotificationChannelId}
    (marks : MarksPassed service state nowUs)
    (serviced : service.notificationDueObservations channel =
      some (lastUpdateUs (state.signal channel)))
    (bounded : (deadline (state.signal channel)).isSome) :
    Board.Passed (deadline (state.signal channel)) nowUs := by
  unfold deadline at bounded ⊢
  cases hvalue : hasValue (state.signal channel) with
  | false =>
    rw [hvalue] at bounded
    cases bounded
  | true =>
    cases htimeout : freshnessTimeoutUs (state.signal channel) with
    | none =>
      rw [hvalue, htimeout] at bounded
      cases bounded
    | some timeout =>
      simp only [if_true, Option.map_some, Board.passed_some]
      exact marks channel _ timeout serviced htimeout

/-- A channel that a publication leaves out has not passed its deadline since it was shown. -/
theorem passed_iff_of_not_selected {channel : NotificationChannelId} (le : shownUs ≤ nowUs)
    (marks : MarksPassed service state shownUs)
    (left : service.selected state nowUs affected globalHealthTransition channel = false) :
    Board.Passed (deadline (state.signal channel)) shownUs ↔
      Board.Passed (deadline (state.signal channel)) nowUs := by
  -- the fixture channel is serviced through the channel that owns its slot
  rw [← VehicleState.deadline_twin]
  have hdue : service.notificationDescriptorDue state nowUs channel.twin = false := by
    simp only [Service.selected, Bool.or_eq_false_iff, List.any_eq_false] at left
    have hnot := left.2 channel.twin (NotificationChannelId.mem_all _)
    simpa using hnot
  have hmarked : service.notificationDueObservations channel.twin =
        some (lastUpdateUs (state.signal channel.twin)) ∧
      (deadline (state.signal channel.twin)).isSome →
      Board.Passed (deadline (state.signal channel.twin)) shownUs := by
    rintro ⟨serviced, bounded⟩
    exact marks.passed serviced bounded
  apply Board.passed_iff_of_serviced le hmarked
  intro passed
  constructor
  · by_contra unserviced
    have hyes := (due_iff channel.id_twin_valid).mpr ⟨passed, unserviced⟩
    rw [hdue] at hyes
    cases hyes
  · obtain ⟨due, hmem, -⟩ := passed
    exact Option.isSome_of_mem hmem

/-- **A selective publication shows every reading**: the channels it leaves out were clean, their
transport is down as before or up as before, and their deadlines have not passed since. -/
theorem visitDescriptors_shows [LawfulSignalSlots Signal] {transport' : TransportHealth}
    (running : ∀ channel, (service.channels channel).running = true) (le : shownUs ≤ nowUs)
    (bounded : nowUs ≤ maxTimestamp)
    (shows : Board.ShowsOff reading dirty ⟨state, transport, shownUs⟩ (currents service))
    (marks : MarksPassed service state shownUs)
    (covers : ∀ channel : NotificationChannelId, dirty channel →
      globalHealthTransition = true ∨ affected = some channel.identifier)
    (down : globalHealthTransition = false →
      (transportDown transport ↔ transportDown transport')) (channel : NotificationChannelId) :
    currents (service.visitDescriptors state transport' nowUs affected globalHealthTransition)
      channel = reading channel ⟨state, transport', nowUs⟩ := by
  have hboard : currents (service.visitDescriptors state transport' nowUs affected
      globalHealthTransition) channel = Board.refresh reading
        (service.selected state nowUs affected globalHealthTransition)
        ⟨state, transport', nowUs⟩ (currents service) channel := by
    rw [currents, Service.visitDescriptors, Board.refresh]
    dsimp only
    split
    · exact current_publish (running channel) _
    · rfl
  rw [hboard]
  refine shows.refresh ?_ channel
  intro other left
  have hleft := left
  simp only [Service.selected, Bool.or_eq_false_iff, beq_eq_false_iff_ne] at hleft
  obtain ⟨⟨hglobal, hother⟩, -⟩ := hleft
  constructor
  · intro hdirty
    rcases covers other hdirty with hyes | hyes
    · rw [hglobal] at hyes
      cases hyes
    · exact hother hyes
  · exact VehicleState.readingAt_congr bounded (le.trans bounded) rfl (down hglobal).symm
      (passed_iff_of_not_selected le marks left).symm

/-- A publication keeps the channels running. -/
theorem visitDescriptors_running (running : ∀ channel, (service.channels channel).running = true)
    (channel : NotificationChannelId) :
    ((service.visitDescriptors state transport nowUs affected
      globalHealthTransition).channels channel).running = true := by
  rw [Service.visitDescriptors]
  dsimp only
  split
  · rw [running_publish]
    exact running channel
  · exact running channel

/-- A publication marks only channels that passed their deadline. -/
theorem visitDescriptors_marks (transport : TransportHealth) (le : shownUs ≤ nowUs)
    (marks : MarksPassed service state shownUs) :
    MarksPassed (service.visitDescriptors state transport nowUs affected globalHealthTransition)
      state nowUs := by
  intro channel serviced timeout hserviced htimeout
  rw [Service.visitDescriptors] at hserviced
  dsimp only at hserviced
  split at hserviced
  next hdue =>
    rw [Bool.and_eq_true] at hdue
    have hdue := hdue.2
    cases hserviced
    rw [Service.notificationDescriptorDue] at hdue
    -- the deadline test is the last of the checks that a due channel has passed
    split at hdue
    · cases hdue
    split at hdue
    · cases hdue
    rw [htimeout] at hdue
    dsimp only at hdue
    split at hdue
    · cases hdue
    next hlate => exact not_le.mp hlate
  · exact lt_of_lt_of_le (marks channel serviced timeout hserviced htimeout) le

/-- While no slot holds a value nothing is due, and a publication without a frame or a transition
covers nothing. -/
theorem visitDescriptors_of_no_values (empty : ∀ channel, hasValue (state.signal channel) = false) :
    service.visitDescriptors state transport nowUs none false = service := by
  have hdue (channel : NotificationChannelId) :
      service.notificationDescriptorDue state nowUs channel = false := by
    rw [Service.notificationDescriptorDue, empty]
    simp
  have hselected (channel : NotificationChannelId) :
      service.selected state nowUs none false channel = false := by
    simp [Service.selected, hdue]
  rw [Service.visitDescriptors]
  simp only [hselected, Bool.false_and, Bool.false_eq_true, if_false]

end Publication

/-! ## A publication after a report -/

section Published

/-- What a publication after a report leaves: every channel at its reading, and the snapshot. -/
structure Published (service published : Service Signal κ) (nowUs : MonotonicTimestamp) :
    Prop where
  running : ∀ channel, (published.channels channel).running = true
  shows : ∀ channel, currents published channel =
    reading channel ⟨service.processingState, service.runtimeDiagnostics.transport, nowUs⟩
  marks : MarksPassed published service.processingState nowUs
  state : published.processingState = service.processingState
  snapshot : published.publication.published.state =
    if service.processingStateChanged then service.processingState
    else service.publication.published.state
  unchanged : published.processingStateChanged = false
  storeConfig : published.publication.config = service.publication.config
  config : published.config = service.config
  transport : published.publishedTransport = service.runtimeDiagnostics.transport
  diagnostics : published.runtimeDiagnostics = service.runtimeDiagnostics
  pending : published.pendingObservationIdentifier = none

/-- A service that published everything at its last report is synced. -/
theorem Published.synced {reported published : Service Signal κ}
    (done : Published reported published nowUs)
    (snapshot : reported.processingStateChanged = false →
      reported.publication.published.state = reported.processingState) :
    Synced { phase := .ready, transport := reported.runtimeDiagnostics.transport, clockUs := nowUs }
      published := by
  refine ⟨done.running, done.transport, ⟨nowUs, le_rfl, ?_, ?_⟩, ?_, ?_⟩
  · intro channel _
    rw [done.state]
    exact done.shows channel
  · rw [done.state]
    exact done.marks
  · intro _
    rw [done.state, done.snapshot]
    split
    · rfl
    next hunchanged => exact snapshot (by simpa using hunchanged)
  · intro _
    exact ⟨done.pending, .inl (by rw [done.diagnostics])⟩

end Published

/-! ## The calls of the runtime -/

section Calls

variable [Inhabited HealthObservation] {runtime : Runtime} {service : Service Signal κ}

/-- Servicing the passed deadlines touches only the channels and their marks. -/
theorem serviceDueNotifications_frame (service : Service Signal κ) (nowUs : MonotonicTimestamp) :
    ∃ channels marks, service.serviceDueNotifications nowUs =
      { service with channels := channels, notificationDueObservations := marks } := by
  rw [Service.serviceDueNotifications]
  split
  · exact ⟨_, _, rfl⟩
  · exact ⟨_, _, rfl⟩

/-- Servicing the passed deadlines does not read the frame at hand. -/
theorem serviceDueNotifications_pending (service : Service Signal κ) (nowUs : MonotonicTimestamp)
    (pending : Option ℕ) :
    ({ service with pendingObservationIdentifier := pending }).serviceDueNotifications nowUs =
      { service.serviceDueNotifications nowUs with pendingObservationIdentifier := pending } := by
  rw [Service.serviceDueNotifications, Service.serviceDueNotifications]
  split <;> rfl

/-- A publication after a report writes the snapshot, the lighting output and what was published
beside the channels it visits. -/
theorem publishCurrent_frame (service : Service Signal κ) (nowUs : MonotonicTimestamp)
    (accepted : Bool) :
    ∃ publication lighting, (service.publishCurrent nowUs accepted).1 =
        { service.visitDescriptors service.processingState service.runtimeDiagnostics.transport
            nowUs service.pendingObservationIdentifier
            (requiresGlobalHealthEvaluation service.publishedLifecycle service.publishedTransport
              service.lifecycleState service.runtimeDiagnostics.transport
              service.publishedHealthInitialized) with
          publication := publication
          lighting := lighting
          processingStateChanged := false
          pendingObservationIdentifier := none
          publishedLifecycle := service.lifecycleState
          publishedTransport := service.runtimeDiagnostics.transport
          publishedHealthInitialized := true } ∧
      publication.published.state =
        (if service.processingStateChanged then service.processingState
          else service.publication.published.state) ∧
      publication.config = service.publication.config := by
  rcases service with ⟨_, _, _, _, changed, _, _, _, _, _, _, _, _, _, _⟩
  dsimp only [Service.publishCurrent, Service.publishNotifications, Service.publishLighting]
  cases changed with
  | true =>
    simp only [if_true]
    split <;> exact ⟨_, _, rfl, rfl, rfl⟩
  | false =>
    simp only [Bool.false_eq_true, if_false, if_true]
    split <;> exact ⟨_, _, rfl, rfl, rfl⟩

variable [LawfulSignalSlots Signal]

/-- Servicing the passed deadlines keeps every channel at its reading. -/
theorem serviceDueNotifications_shows (synced : Synced runtime service)
    (ready : runtime.phase = .ready) (reads : runtime.reads nowUs) :
    (∀ channel, ((service.serviceDueNotifications nowUs).channels channel).running = true) ∧
    ∃ shownUs ≤ nowUs,
      Board.ShowsOff reading (fun _ => False)
        ⟨service.processingState, runtime.transport, shownUs⟩
        (currents (service.serviceDueNotifications nowUs)) ∧
      MarksPassed (service.serviceDueNotifications nowUs) service.processingState shownUs := by
  obtain ⟨shownUs, hshown, shows, marks⟩ := synced.shown
  obtain ⟨hpending, hreport⟩ := synced.report ready
  have hclean : Board.ShowsOff reading (fun _ => False)
      ⟨service.processingState, runtime.transport, shownUs⟩ (currents service) := by
    apply shows.move
    intro channel _
    rw [hpending]
    exact ⟨nofun, rfl⟩
  rw [Service.serviceDueNotifications]
  split
  · exact ⟨synced.running, shownUs, hshown.trans reads.1, hclean, marks⟩
  show (∀ channel, ((service.visitDescriptors _ _ _ _ _).channels channel).running = true) ∧ _
  refine ⟨visitDescriptors_running synced.running, ?_⟩
  rcases hreport with htransport | hempty
  · refine ⟨nowUs, le_rfl, ?_, visitDescriptors_marks _ (hshown.trans reads.1) marks⟩
    intro channel _
    rw [← htransport] at hclean ⊢
    exact visitDescriptors_shows synced.running (hshown.trans reads.1) reads.2 hclean marks
      (fun _ h => h.elim) (fun _ => Iff.rfl) channel
  · -- before the first value nothing is due, whatever transport is assumed
    refine ⟨shownUs, hshown.trans reads.1, ?_⟩
    show Board.ShowsOff _ _ _ (currents (service.visitDescriptors _ _ _ _ _)) ∧
      MarksPassed (service.visitDescriptors _ _ _ _ _) _ _
    rw [visitDescriptors_of_no_values hempty]
    exact ⟨hclean, marks⟩

/-- **A received frame** leaves only the channels of its message behind. -/
theorem Synced.process {isValid : RawCanFrame → Bool} (synced : Synced runtime service)
    (ready : runtime.phase = .ready) (reads : runtime.reads nowUs) :
    Synced { runtime with phase := .processing, clockUs := nowUs }
      (service.process isValid frame nowUs).1 := by
  obtain ⟨hrunning, shownUs, hshown, shows, marks⟩ :=
    serviceDueNotifications_shows synced ready reads
  obtain ⟨channels, due, hframe⟩ := serviceDueNotifications_frame service nowUs
  dsimp only [Service.process]
  rw [serviceDueNotifications_pending]
  rw [hframe] at hrunning shows marks ⊢
  refine ⟨hrunning, synced.transport, ⟨shownUs, hshown, ?_, ?_⟩, ?_, nofun⟩
  · intro channel clean
    rw [decode_clean]
    · exact shows channel id
    · intro heq
      exact clean (congrArg some heq.symm)
  · intro channel serviced timeout hserviced htimeout
    rw [(Candidate.decode_effect isValid frame service.processingState).timeout] at htimeout
    exact marks channel serviced timeout hserviced htimeout
  · intro unchanged
    simp only [Bool.or_eq_false_iff, bne_eq_false_iff_eq] at unchanged
    obtain ⟨hkept, hmarker⟩ := unchanged
    rw [synced.snapshot hkept, decode_unmarked hmarker]

/-- **A publication after a report** brings every channel and the snapshot up to date. -/
theorem publishCurrent_published (accepted : Bool)
    (running : ∀ channel, (service.channels channel).running = true) (le : shownUs ≤ nowUs)
    (bounded : nowUs ≤ maxTimestamp)
    (shows : Board.ShowsOff reading dirty ⟨service.processingState, transport, shownUs⟩
      (currents service)) (marks : MarksPassed service service.processingState shownUs)
    (covers : ∀ channel : NotificationChannelId, dirty channel →
      requiresGlobalHealthEvaluation service.publishedLifecycle service.publishedTransport
          service.lifecycleState service.runtimeDiagnostics.transport
          service.publishedHealthInitialized = true ∨
        service.pendingObservationIdentifier = some channel.identifier)
    (down : requiresGlobalHealthEvaluation service.publishedLifecycle service.publishedTransport
          service.lifecycleState service.runtimeDiagnostics.transport
          service.publishedHealthInitialized = false →
      (transportDown transport ↔ transportDown service.runtimeDiagnostics.transport)) :
    Published service (service.publishCurrent nowUs accepted).1 nowUs := by
  obtain ⟨publication, lighting, heq, hstate, hconfig⟩ :=
    publishCurrent_frame service nowUs accepted
  rw [heq]
  refine ⟨visitDescriptors_running running, ?_, ?_, rfl, hstate, rfl, hconfig, rfl, rfl, rfl, rfl⟩
  swap
  · exact visitDescriptors_marks service.runtimeDiagnostics.transport le marks
  exact visitDescriptors_shows running le bounded shows marks covers down

/-- **A report** brings every channel and the snapshot up to date. -/
theorem Synced.onDiagnostics (synced : Synced runtime service) (accepted : Bool)
    (reads : runtime.reads nowUs)
    (recovers : transportDown runtime.transport → ¬ transportDown diagnostics.transport →
      Recovers runtime.transport diagnostics) :
    ∃ reported : Service Signal κ, Published reported
        (service.onDiagnostics diagnostics nowUs accepted).1 nowUs ∧
      reported.runtimeDiagnostics = diagnostics ∧
      reported.processingState = service.processingState ∧
      reported.publication = service.publication ∧ reported.config = service.config ∧
      reported.processingStateChanged = service.processingStateChanged := by
  obtain ⟨shownUs, hshown, shows, marks⟩ := synced.shown
  refine ⟨_, publishCurrent_published accepted synced.running (hshown.trans reads.1) reads.2 shows
    marks (fun channel dirty => .inr dirty) ?_, rfl, rfl, rfl, rfl, rfl⟩
  intro notGlobal
  rw [← synced.transport] at recovers ⊢
  exact down_of_not_global rfl recovers notGlobal

end Calls

/-! ## The lifecycle -/

section Lifecycle

variable {runtime : Runtime} {service : Service Signal κ}

/-- Where every channel lets itself be started, all of them run. -/
theorem startChannels_running (starts : service.channelsStart = true)
    (channel : NotificationChannelId) : (service.startChannels.channels channel).running = true := by
  simp only [Service.channelsStart, List.all_eq_true, decide_eq_true_eq] at starts
  have hall : (NotificationChannelId.all.takeWhile fun other =>
      (service.channels other).start.2 = .ok) = NotificationChannelId.all := by
    rw [List.takeWhile_eq_self_iff]
    intro other hother
    simpa using starts other hother
  rw [Service.startChannels]
  dsimp only
  rw [hall, if_pos (by simpa using NotificationChannelId.mem_all channel)]
  exact running_start (starts channel (NotificationChannelId.mem_all channel))

/-- A runtime that resets its processor on its start finds it empty already. -/
theorem Synced.reset [LawfulSignalSlots Signal] (synced : Synced runtime service)
    (empty : service.processingState =
      VehicleState.applyFreshnessPolicy {} service.config.freshness)
    (pending : service.pendingObservationIdentifier = none)
    (unchanged : service.processingStateChanged = false) : Synced runtime service.reset := by
  obtain ⟨shownUs, hshown, shows, -⟩ := synced.shown
  refine ⟨synced.running, synced.transport, ⟨shownUs, hshown, ?_, nofun⟩, ?_, ?_⟩
  · rw [pending] at shows
    rw [empty] at shows
    exact shows
  · intro _
    exact (synced.snapshot unchanged).trans empty
  · intro _
    exact ⟨rfl, .inr (hasValue_empty _)⟩

variable [Inhabited HealthObservation]

/-- A start that succeeds has started every channel, published the empty state and, where the
runtime asked for it, reset the service. -/
theorem start_of_ok {inputs : Service.StartInputs} (ok : (service.start inputs).2 = .ok) :
    (service.prepareStart inputs.blackUs inputs.blackAccepted).channelsStart = true ∧
    (service.start inputs).1 =
      (let published := ((service.prepareStart inputs.blackUs
        inputs.blackAccepted).startChannels.publishCurrent inputs.nowUs inputs.accepted).1
      if inputs.runtime.resets then published.reset else published) := by
  rw [Service.start] at ok ⊢
  by_cases h₁ : service.lifecycleState = .running
  · rw [if_pos h₁] at ok
    cases ok
  rw [if_neg h₁] at ok ⊢
  by_cases h₂ : service.lifecycleState = .faulted
  · rw [if_pos h₂] at ok
    cases ok
  rw [if_neg h₂] at ok ⊢
  by_cases h₃ : service.lifecycleState = .stopping
  · rw [if_pos h₃] at ok
    cases ok
  rw [if_neg h₃] at ok ⊢
  by_cases h₄ : (!service.config.valid) = true
  · rw [if_pos h₄] at ok
    cases ok
  rw [if_neg h₄] at ok ⊢
  dsimp only at ok ⊢
  cases hstarts : (service.prepareStart inputs.blackUs inputs.blackAccepted).channelsStart with
  | false =>
    rw [hstarts] at ok
    cases ok
  | true =>
    rw [hstarts] at ok
    simp only [Bool.not_true, Bool.false_eq_true, if_false] at ok ⊢
    by_cases h₅ : inputs.runtime.status = .ok
    · rw [if_neg (not_not.mpr h₅)] at ok ⊢
      cases hdispatcher : inputs.dispatcherStarts with
      | false =>
        rw [hdispatcher] at ok
        cases ok
      | true => exact ⟨trivial, rfl⟩
    · rw [if_pos h₅] at ok
      exact absurd ok (mapRuntimeStatus_ne_ok h₅)

/-- A start of a service that is not stopped, or whose configuration is invalid, is refused. -/
theorem start_refused (refused : ¬ (service.lifecycleState = .stopped ∧ service.config.valid))
    (inputs : Service.StartInputs) : (service.start inputs).1 = service := by
  rw [Service.start]
  split
  · rfl
  split
  · rfl
  split
  · rfl
  next h₁ h₂ h₃ =>
    have hstopped : service.lifecycleState = .stopped := by
      cases hlifecycle : service.lifecycleState
      · rfl
      · exact absurd hlifecycle h₁
      · exact absurd hlifecycle h₃
      · exact absurd hlifecycle h₂
    have hinvalid : (!service.config.valid) = true := by
      simpa [hstopped] using refused
    rw [if_pos hinvalid]

/-- The first publication of a run covers every channel. -/
theorem publishCurrent_of_uninitialized [LawfulSignalSlots Signal] (accepted : Bool)
    (running : ∀ channel, (service.channels channel).running = true)
    (uninitialized : service.publishedHealthInitialized = false)
    (unmarked : ∀ channel, service.notificationDueObservations channel = none)
    (bounded : nowUs ≤ maxTimestamp) :
    Published service (service.publishCurrent nowUs accepted).1 nowUs := by
  have hglobal : requiresGlobalHealthEvaluation service.publishedLifecycle
      service.publishedTransport service.lifecycleState service.runtimeDiagnostics.transport
      service.publishedHealthInitialized = true := by
    rw [uninitialized]
    rfl
  have hshows : Board.ShowsOff reading (fun _ => True)
      ⟨service.processingState, service.publishedTransport, 0⟩ (currents service) := by
    intro _ clean
    exact absurd trivial clean
  have hmarks : MarksPassed service service.processingState 0 := by
    intro channel serviced _ hserviced
    rw [unmarked] at hserviced
    cases hserviced
  apply publishCurrent_published accepted running (Nat.zero_le _) bounded hshows hmarks
  · intro _ _
    exact .inl hglobal
  · intro hnot
    rw [hglobal] at hnot
    cases hnot

/-- **A successful start** publishes every channel and the empty state. -/
theorem start_synced [LawfulSignalSlots Signal] {inputs : Service.StartInputs}
    (config : service.publication.config = service.config) (bounded : inputs.nowUs ≤ maxTimestamp)
    (ok : (service.start inputs).2 = .ok) :
    Synced { phase := .ready, transport := .awaitingTraffic, clockUs := inputs.nowUs }
      (service.start inputs).1 := by
  obtain ⟨hstarts, heq⟩ := start_of_ok ok
  rw [heq]
  have done : Published (service.prepareStart inputs.blackUs inputs.blackAccepted).startChannels
      _ inputs.nowUs :=
    publishCurrent_of_uninitialized inputs.accepted (startChannels_running hstarts) rfl
      (fun _ => rfl) bounded
  have hempty : (service.prepareStart inputs.blackUs
      inputs.blackAccepted).startChannels.publication.published.state =
        (service.prepareStart inputs.blackUs
          inputs.blackAccepted).startChannels.processingState := by
    show VehicleState.applyFreshnessPolicy {} service.publication.config.freshness =
      VehicleState.applyFreshnessPolicy {} service.config.freshness
    rw [config]
  have synced := done.synced fun _ => hempty
  cases hresets : inputs.runtime.resets with
  | false =>
    exact synced
  | true =>
    refine synced.reset ?_ done.pending done.unchanged
    rw [done.state, done.config]
    rfl

/-- No call but a reconfiguration changes the configuration, and that one changes it in both
places. -/
theorem step_config {isValid : RawCanFrame → Bool} (call : Call κ)
    (config : service.publication.config = service.config) :
    (service.step isValid call).1.publication.config = (service.step isValid call).1.config := by
  have hpublish (s : Service Signal κ) (nowUs : MonotonicTimestamp) (accepted : Bool) :
      (s.publishCurrent nowUs accepted).1.publication.config = s.publication.config ∧
        (s.publishCurrent nowUs accepted).1.config = s.config := by
    obtain ⟨publication, lighting, heq, -, hconfig⟩ := publishCurrent_frame s nowUs accepted
    rw [heq]
    exact ⟨hconfig, rfl⟩
  cases call with
  | configure candidate runtime =>
    dsimp only [Service.step, Service.configure, Prod.map]
    split
    · exact config
    split
    · exact config
    split
    · exact config
    dsimp only [PublicationStore.configure]
    split
    next heq =>
      split at heq
      · cases heq
      next hstopped => simp [hstopped]
    · exact config
  | bindLightingSink =>
    dsimp only [Service.step, Service.bindLightingSink, Prod.map]
    split <;> exact config
  | start inputs =>
    dsimp only [Service.step, Service.start, Prod.map]
    have hprepared : ((service.prepareStart inputs.blackUs
        inputs.blackAccepted).startChannels.publishCurrent inputs.nowUs
          inputs.accepted).1.publication.config =
        ((service.prepareStart inputs.blackUs
        inputs.blackAccepted).startChannels.publishCurrent inputs.nowUs inputs.accepted).1.config := by
      rw [(hpublish _ _ _).1, (hpublish _ _ _).2]
      exact config
    repeat' split
    all_goals first | exact config | exact hprepared
  | beginStop =>
    dsimp only [Service.step, Service.beginStop]
    split <;> exact config
  | finishStop inputs =>
    dsimp only [Service.step, Service.finishStop, Prod.map]
    repeat' split
    all_goals exact config
  | process frame nowUs =>
    dsimp only [Service.step, Service.process, Prod.map]
    rw [serviceDueNotifications_pending]
    obtain ⟨channels, marks, heq⟩ := serviceDueNotifications_frame service nowUs
    rw [heq]
    exact config
  | onDiagnostics diagnostics nowUs accepted =>
    show (Service.publishCurrent _ nowUs accepted).1.publication.config =
      (Service.publishCurrent _ nowUs accepted).1.config
    rw [(hpublish _ _ _).1, (hpublish _ _ _).2]
    exact config
  | channel channel call => exact config

/-- Calls on the channels by subscribers and by the dispatcher change nothing that is shown. -/
theorem Synced.channel (isValid : RawCanFrame → Bool) {service : Service Signal κ}
    (synced : Synced runtime service) (channel : NotificationChannelId)
    (call : SignalNotification.Call channel.Value κ)
    (admitted : runtime.admits service (.channel channel call)) :
    Synced runtime (service.step isValid (.channel channel call)).1 := by
  have hshows := channel_step_shows channel.number (service.channels channel) call admitted
  have hsame (other : NotificationChannelId) :
      (((service.step isValid (.channel channel call)).1.channels other).current =
        (service.channels other).current) ∧
      (((service.step isValid (.channel channel call)).1.channels other).running =
        (service.channels other).running) := by
    dsimp only [Service.step]
    by_cases heq : other = channel
    · subst heq
      rw [Function.update_self]
      exact hshows
    · rw [Function.update_of_ne heq]
      exact ⟨rfl, rfl⟩
  obtain ⟨shownUs, hshown, shows, marks⟩ := synced.shown
  refine ⟨?_, synced.transport, ⟨shownUs, hshown, ?_, marks⟩, synced.snapshot, synced.report⟩
  · intro other
    rw [(hsame other).2]
    exact synced.running other
  · intro other clean
    exact (hsame other).1.trans (shows other clean)

end Lifecycle

/-! ## Runs -/

section Runs

variable [LawfulSignalSlots Signal] [Inhabited HealthObservation] {isValid : RawCanFrame → Bool}

/-- **Every admitted call keeps the service consistent.** -/
theorem Consistent.step {system : Runtime × Service Signal κ} (consistent : Consistent system)
    (call : Call κ) (admitted : system.1.admits system.2 call) :
    Consistent (System.step isValid system call).1 := by
  obtain ⟨runtime, service⟩ := system
  obtain ⟨config, clock, synced⟩ := consistent
  refine ⟨step_config call config, ?_, ?_⟩
  · -- the clock after a call is its last reading
    cases call with
    | start inputs =>
      dsimp only [System.step, Runtime.next, Service.step, Prod.map]
      repeat' split
      all_goals first | exact admitted.2.2.2 | exact clock
    | process frame nowUs => exact admitted.2.2
    | onDiagnostics diagnostics nowUs accepted => exact admitted.2.1.2
    | _ => exact clock
  · intro active
    cases call with
    | configure candidate answer => exact absurd admitted active
    | bindLightingSink =>
      have hsynced := synced active
      dsimp only [System.step, Runtime.next, Service.step, Service.bindLightingSink, Prod.map]
      split
      · exact hsynced
      · exact ⟨hsynced.running, hsynced.transport, hsynced.shown, hsynced.snapshot, hsynced.report⟩
    | beginStop =>
      have hsynced := synced active
      dsimp only [System.step, Runtime.next, Service.step, Service.beginStop]
      split
      · exact hsynced
      · exact ⟨hsynced.running, hsynced.transport, hsynced.shown, hsynced.snapshot, hsynced.report⟩
    | finishStop inputs => exact absurd rfl active
    | start inputs =>
      dsimp only [System.step, Runtime.next, Service.step, Prod.map] at active ⊢
      by_cases hstarts : service.lifecycleState = .stopped ∧ service.config.valid
      · rw [if_pos hstarts] at active ⊢
        by_cases hok : (service.start inputs).2 = .ok
        · simp only [id, if_pos hok]
          exact start_synced config admitted.2.2.2 hok
        · simp only [if_neg hok] at active
          exact absurd rfl active
      · rw [if_neg hstarts] at active ⊢
        simp only [id, start_refused hstarts inputs]
        exact synced active
    | process frame nowUs =>
      obtain ⟨ready, reads⟩ := admitted
      exact (synced (by rw [ready]; nofun)).process ready reads
    | onDiagnostics diagnostics nowUs accepted =>
      obtain ⟨notIdle, reads, recovers⟩ := admitted
      have hsynced := synced notIdle
      obtain ⟨reported, done, hdiagnostics, hstate, hpublication, -, hchanged⟩ :=
        hsynced.onDiagnostics accepted reads recovers
      have hdone := done.synced (by rw [hchanged, hpublication, hstate]; exact hsynced.snapshot)
      rw [hdiagnostics] at hdone
      exact hdone
    | channel channel channelCall => exact (synced active).channel isValid channel channelCall admitted

/-- An admissible run keeps the service consistent. -/
theorem Admissible.consistent {config : TelemetryConfig} {lightingSink : Bool}
    {calls : List (Call κ)}
    (admissible : Admissible isValid
      (System.construct config lightingSink : Runtime × Service Signal κ) calls) :
    Consistent (Machine.after (System.step isValid)
      (System.construct config lightingSink : Runtime × Service Signal κ) calls) := by
  revert admissible
  rw [Admissible]
  refine Machine.invariant_moves (P := fun (system : Runtime × Service Signal κ) moves =>
    (∀ move ∈ moves, move.1.1.admits move.1.2 move.2) → Consistent system) ?_ ?_ calls
  · intro _
    exact ⟨rfl, Nat.zero_le _, fun active => absurd rfl active⟩
  · intro system moves call ih admitted
    have hsystem := ih fun move hmove => admitted move (List.mem_append_left _ hmove)
    exact hsystem.step call
      (admitted (system, call) (List.mem_append_right _ (List.mem_singleton_self _)))

/-- **Selective publication refines full publication**: in every run of the service under its
runtime's discipline, after every report every channel's current reading is the one derived from
the processing state at the report's clock reading under the transport it reported; publishing
every channel would change none of them; and the snapshot is the processing state. -/
theorem selective_publication (isValid : RawCanFrame → Bool) (config : TelemetryConfig)
    (lightingSink : Bool) (calls : List (Call κ)) (diagnostics : TransportDiagnostics)
    (nowUs : MonotonicTimestamp) (accepted : Bool)
    (admissible : Admissible isValid
      (System.construct config lightingSink : Runtime × Service Signal κ)
      (calls ++ [.onDiagnostics diagnostics nowUs accepted])) :
    let service := (Machine.after (System.step isValid)
      (System.construct config lightingSink : Runtime × Service Signal κ)
      (calls ++ [.onDiagnostics diagnostics nowUs accepted])).2
    (∀ channel, (service.channels channel).current =
      service.processingState.readingAt (service.processingState.signal channel)
        channel.identifier nowUs channel.validation diagnostics.transport) ∧
    (∀ channel, ((service.channels channel).publish
        (service.processingState.readingAt (service.processingState.signal channel)
          channel.identifier nowUs channel.validation diagnostics.transport)).1 =
      service.channels channel) ∧
    service.publication.published.state = service.processingState := by
  have hbefore : Admissible isValid
      (System.construct config lightingSink : Runtime × Service Signal κ) calls := by
    intro move hmove
    apply admissible
    rw [Machine.moves_snoc]
    exact List.mem_append_left _ hmove
  have hadmitted := admissible _ (by
    rw [Machine.moves_snoc]
    exact List.mem_append_right _ (List.mem_singleton_self _))
  have hconsistent := hbefore.consistent
  rw [Machine.after_snoc]
  generalize Machine.after (System.step isValid)
    (System.construct config lightingSink : Runtime × Service Signal κ) calls = system at *
  obtain ⟨runtime, before⟩ := system
  obtain ⟨notIdle, reads, recovers⟩ := hadmitted
  have hsynced := hconsistent.synced notIdle
  obtain ⟨reported, done, hdiagnostics, hstate, hpublication, -, hchanged⟩ :=
    hsynced.onDiagnostics accepted reads recovers
  have hshown (channel : NotificationChannelId) :
      ((before.onDiagnostics diagnostics nowUs accepted).1.channels channel).current =
        (before.onDiagnostics diagnostics nowUs accepted).1.processingState.readingAt
          ((before.onDiagnostics diagnostics nowUs accepted).1.processingState.signal channel)
          channel.identifier nowUs channel.validation diagnostics.transport := by
    have hshows := done.shows channel
    rw [hdiagnostics, ← done.state] at hshows
    exact hshows
  refine ⟨hshown, ?_, ?_⟩
  · intro channel
    have hagain := publish_current (done.running channel)
    rw [hshown channel] at hagain
    exact hagain
  · show (before.onDiagnostics diagnostics nowUs accepted).1.publication.published.state =
      (before.onDiagnostics diagnostics nowUs accepted).1.processingState
    rw [done.snapshot, done.state]
    split
    · rfl
    next hunchanged =>
      rw [Bool.not_eq_true, hchanged] at hunchanged
      rw [hpublication, hstate]
      exact hsynced.snapshot hunchanged

end Runs

end Refinement

/-! ## A run over a documented slot -/

/-- What the runtime of the run below reports on its last frame. -/
def liveDiagnostics : TransportDiagnostics where
  lifecycle := .running
  transport := .live
  hasLastFrame := true
  lastFrameUs := 20
  framesProcessed := 1
  framesIgnored := 0
  framesMalformed := 0
  processorFaults := 0
  workBudgetPauses := 0
  acquisition := ⟨1, 0, 0, 0, 0, 0, 0⟩

local instance : Inhabited TransportDiagnostics :=
  ⟨{ liveDiagnostics with lifecycle := .stopped, transport := .stopped }⟩

local instance : Inhabited HealthObservation :=
  ⟨⟨.stopped, .unknown, .noData, false, 0, false, 0, none⟩⟩

/-- A start and a frame of the left turn switch. -/
def leftTurnCalls : List (Call Unit) :=
  [.start ⟨5, 6, true, true, ⟨true, .ok, false⟩, true⟩,
    .process { timestampUs := 20, identifier := 0x091, dlc := 8,
               data := #v[0, 0x20, 0, 0, 0, 0, 0, 0] } 25]

theorem selective_publication_left_turn :
    ((Machine.after (System.step fun _ => true)
      (System.construct {} true : Runtime × Service DocumentedSlot Unit)
      (leftTurnCalls ++ [.onDiagnostics liveDiagnostics 30 true])).2.channels .turn).current =
      ⟨some TurnState.left, .fresh, .reference⟩ := by
  have hrun := selective_publication (fun _ => true) {} true leftTurnCalls liveDiagnostics 30 true
    (fun (move : (Runtime × Service DocumentedSlot Unit) × Call Unit) hmove => by
      simp only [leftTurnCalls, List.cons_append, List.nil_append, Machine.moves, List.mem_cons,
        List.not_mem_nil, or_false] at hmove
      rcases hmove with rfl | rfl | rfl
      · exact ⟨(fun h => by cases h), ⟨Nat.zero_le _, by decide⟩, by decide, by decide⟩
      · exact ⟨by decide, by decide, by decide⟩
      · exact ⟨by decide, ⟨by decide, by decide⟩, fun down => absurd down (by decide)⟩)
  exact (hrun.1 .turn).trans (by decide)

end AccessoryController.Mazda
