import AccessoryController.Library.While
import AccessoryController.VehicleCore.Contracts

/-!
# The replay scheduler

A replay delivers recorded frames to the host controller and interleaves them with the periodic
work of the pipeline: availability timeouts, polled rules, signal samples and output ticks. The
scheduler owns the replay clock and moves it to the next due time; the controller hands each
input to the telemetry worker and drains what it published. Everything that the two are injected
with (the telemetry runtime, the action engine, the observers, the output stage and the gate) is
a parameter with a state of its own.

## Main definitions

* `Stages`: the injected collaborators of a replay
* `ReplayController`: the controller with its acquisition source
* `validate`, `fitsEventBudget`, `nextDeadline`: the checks before a run, and the next due time
* `iteration`: one round of the scheduling loop
* `runReplay`: a whole replay
-/

namespace AccessoryController.Replay

open VehicleCore

/-! ### The controller -/

inductive ReplayControllerStatus
  | ok | invalidState | configurationFailed | synchronizationTimeout | telemetryFault | outputFault
  deriving DecidableEq, Repr

inductive ReplayInputResult
  | frame | timeout | endOfStream | fault
  deriving DecidableEq, Repr

structure ReplayStepResult where
  status : ReplayControllerStatus := .invalidState
  input : ReplayInputResult := .timeout
  deriving DecidableEq, Repr

/-- A recorded frame with its time since the start of the recording. -/
structure TimedCanFrame where
  relativeTimeUs : Microseconds
  frame : RawCanFrame

/-- What the acquisition source answers to a receive. -/
inductive ReceiveStatus
  | frame | timeout | notStarted | fault
  deriving DecidableEq, Repr

/-- The receive of the acquisition source: while it runs, a pending frame is handed over once its
time has come. -/
def ReplayAcquisitionSource.receive (running : Bool) (now : MonotonicTimestamp)
    (pending : List TimedCanFrame) :
    (ReceiveStatus × Option RawCanFrame) × List TimedCanFrame :=
  if !running then ((.notStarted, none), pending)
  else
    match pending with
    | [] => ((.timeout, none), pending)
    | timed :: rest =>
      if now < timed.relativeTimeUs then ((.timeout, none), pending)
      else ((.frame, some timed.frame), rest)

/-- What the controller grants the worker for one receive. -/
inductive Grant
  | receive | timeout | fault
  deriving DecidableEq, Repr

/-- The results of the telemetry service. -/
inductive ResultCode
  | ok | invalidConfiguration | invalidState | alreadyRunning | notRunning | timeout
  | capacityExceeded | invalidSubscription | faulted
  deriving DecidableEq, Repr

def mapTelemetryStatus : ResultCode → ReplayControllerStatus
  | .ok => .ok
  | .invalidConfiguration => .configurationFailed
  | .invalidState | .alreadyRunning | .notRunning => .invalidState
  | .timeout => .synchronizationTimeout
  | .capacityExceeded | .invalidSubscription | .faulted => .telemetryFault

/-- The collaborators that a replay is injected with, over their own state `P`. Each is called
with the replay time. -/
structure Stages (P : Type) where
  /-- The natural cadence of the output stage. -/
  tickPeriodUs : Microseconds
  /-- Whether observers are injected. -/
  observed : Bool
  /-- The admission of the gate, when one is given. -/
  gate : Option (MonotonicTimestamp → P → Bool × P)
  /-- Starts the output stage, the engine, the observers and telemetry. -/
  start : MonotonicTimestamp → P → ReplayControllerStatus × P
  /-- The worker publishes what it received for a grant, and the notifications are drained. -/
  publish : MonotonicTimestamp → ReceiveStatus → Option RawCanFrame → P →
    ReplayControllerStatus × P
  samplePolledRules : MonotonicTimestamp → P → Bool × P
  sampleSignals : MonotonicTimestamp → P → Bool × P
  tick : MonotonicTimestamp → P → Bool × P
  failOff : MonotonicTimestamp → P → Bool × P
  /-- Releases the output stage. -/
  stop : MonotonicTimestamp → P → Bool × P
  /-- Stops telemetry: its result, and whether it is quiescent. -/
  stopTelemetry : P → (ResultCode × Bool) × P

inductive ControllerState
  | ready | starting | running | failed | stopped
  deriving DecidableEq, Repr

/-- The host controller. Of the acquisition source the frames not yet received are kept, and
those that the worker was handed. -/
structure ReplayController (P : Type) where
  state : ControllerState := .ready
  pending : List TimedCanFrame
  received : List RawCanFrame := []
  stages : P

namespace ReplayController

variable {P : Type} (stages : Stages P) (now : MonotonicTimestamp) (c : ReplayController P)

def nextFrameTime : Option MonotonicTimestamp := c.pending.head?.map (·.relativeTimeUs)

/-- The worker receives from the acquisition source, which the controller has started and not yet
stopped while it is running. -/
def sourceReceive : (ReceiveStatus × Option RawCanFrame) × ReplayController P :=
  let result := ReplayAcquisitionSource.receive (c.state = .running) now c.pending
  (result.1, { c with pending := result.2, received := c.received ++ result.1.2.toList })

/-- What the worker receives for a grant. -/
def gatedReceive : Grant → (ReceiveStatus × Option RawCanFrame) × ReplayController P
  | .receive => c.sourceReceive now
  | .timeout => ((.timeout, none), c)
  | .fault => ((.fault, none), c)

/-- A failed operation leaves the controller failed and the output off. -/
def fail (status : ReplayControllerStatus) : ReplayControllerStatus × ReplayController P :=
  (status, { c with state := .failed, stages := (stages.failOff now c.stages).2 })

def failStep (status : ReplayControllerStatus) : ReplayStepResult × ReplayController P :=
  (⟨status, .fault⟩, (c.fail stages now status).2)

/-- One input: the worker is granted a receive, publishes its result, and the notifications are
drained. -/
def processInput (grant : Grant) : ReplayStepResult × ReplayController P :=
  if c.state ≠ .running then ({}, c)
  else
    let received := c.gatedReceive now grant
    let published := stages.publish now received.1.1 received.1.2 received.2.stages
    let c := { received.2 with stages := published.2 }
    if published.1 ≠ .ok then c.failStep stages now published.1
    else
      match received.1.1 with
      | .frame => (⟨.ok, .frame⟩, c)
      | .timeout =>
        (⟨.ok, if grant = .receive ∧ c.pending = [] then .endOfStream else .timeout⟩, c)
      | .fault | .notStarted => c.failStep stages now .telemetryFault

def processNextFrame : ReplayStepResult × ReplayController P :=
  if c.state ≠ .running then ({}, c)
  else if c.nextFrameTime.any (now < ·) then (⟨.invalidState, .timeout⟩, c)
  else c.processInput stages now .receive

def processTimeout : ReplayStepResult × ReplayController P := c.processInput stages now .timeout

/-- An operation of an injected stage: a fault fails the controller with `status`. -/
def operate (operation : MonotonicTimestamp → P → Bool × P) (status : ReplayControllerStatus) :
    ReplayControllerStatus × ReplayController P :=
  if c.state ≠ .running then (.invalidState, c)
  else
    let result := operation now c.stages
    let c := { c with stages := result.2 }
    if result.1 then (.ok, c) else c.fail stages now status

def samplePolledRules : ReplayControllerStatus × ReplayController P :=
  c.operate stages now stages.samplePolledRules .telemetryFault

def sampleSignals : ReplayControllerStatus × ReplayController P :=
  c.operate stages now stages.sampleSignals .telemetryFault

def tickOutput : ReplayControllerStatus × ReplayController P :=
  c.operate stages now stages.tick .outputFault

def start : ReplayControllerStatus × ReplayController P :=
  if c.state ≠ .ready then (.invalidState, c)
  else
    let started := stages.start now c.stages
    (started.1,
      { c with state := if started.1 = .ok then .running else .stopped, stages := started.2 })

/-- Stops telemetry and releases the output, which is failed off first. -/
def stop : ReplayControllerStatus × ReplayController P :=
  if c.state ≠ .running ∧ c.state ≠ .failed then (.invalidState, c)
  else
    let telemetry := stages.stopTelemetry c.stages
    let off := stages.failOff now telemetry.2
    let released := stages.stop now off.2
    let outputStatus := if off.1 && released.1 then .ok else .outputFault
    let c := { c with stages := released.2 }
    if telemetry.1.2 then
      (if telemetry.1.1 = .faulted then .telemetryFault
        else if telemetry.1.1 ≠ .ok then mapTelemetryStatus telemetry.1.1
        else outputStatus,
        { c with state := .stopped })
    else
      (if telemetry.1.1 = .timeout then .synchronizationTimeout else .telemetryFault,
        { c with state := .failed })

end ReplayController

/-! ### Options and their checks -/

inductive ReplayScheduleStatus
  | ok | invalidInput | invalidOptions | clockFailure | controllerFailure | interrupted
  deriving DecidableEq, Repr

inductive ReplayEventKind
  | frame | endOfStream | timeout | poll | outputTick | signalSample
  deriving DecidableEq, Repr

structure ReplayEvent where
  timeUs : MonotonicTimestamp
  kind : ReplayEventKind
  deriving DecidableEq, Repr

/-- The options of a replay: an inclusive horizon, and the cadences of the periodic work. -/
structure ReplayScheduleOptions where
  endTimeUs : MonotonicTimestamp
  availabilityPeriodUs : Microseconds
  outputTickPeriodUs : Option Microseconds
  pollPeriodUs : Microseconds
  signalSamplePeriodUs : Option Microseconds
  /-- The horizon is a 64-bit timestamp. -/
  endTimeUs_le : endTimeUs ≤ maxTimestamp

/-- Bounds the generated work of a run; input frames do not count. -/
def kMaximumScheduledEvents : ℕ := 2000000

/-- The cadences that depend on what is injected. -/
structure Cadences where
  outputTickPeriodUs : Microseconds
  signalSamplePeriodUs : Option Microseconds

/-- Takes `count` events from the budget that remains. -/
def fits (count remaining : ℕ) : Option ℕ :=
  if remaining < count then none else some (remaining - count)

/-- Takes the events of a cadence that also runs at time zero. -/
def fitsInclusiveCadence (elapsedTicks remaining : ℕ) : Option ℕ :=
  if remaining ≤ elapsedTicks then none else some (remaining - (elapsedTicks + 1))

def fitsEventBudget (options : ReplayScheduleOptions) (cadences : Cadences) : Bool :=
  let availability := options.endTimeUs / options.availabilityPeriodUs
  let outputTicks := options.endTimeUs / cadences.outputTickPeriodUs
  let polls := options.endTimeUs / options.pollPeriodUs
  let signalSamples := cadences.signalSamplePeriodUs.map (options.endTimeUs / ·)
  -- The end of the stream is one event of its own.
  let remaining := do
    let remaining ← fits availability (kMaximumScheduledEvents - 1)
    let remaining ← fitsInclusiveCadence outputTicks remaining
    let remaining ← fitsInclusiveCadence polls remaining
    match signalSamples with
    | none => pure remaining
    | some samples => fitsInclusiveCadence samples remaining
  remaining.isSome

/-- The frames come in the order of their times, and each carries its own time. -/
def orderedFrom : MonotonicTimestamp → List TimedCanFrame → Bool
  | _, [] => true
  | previous, timed :: rest =>
    if timed.relativeTimeUs < previous ∨ timed.frame.timestampUs ≠ timed.relativeTimeUs then false
    else orderedFrom timed.relativeTimeUs rest

def validate (frames : List TimedCanFrame) (now : MonotonicTimestamp)
    (options : ReplayScheduleOptions) (cadences : Cadences) : ReplayScheduleStatus :=
  if now ≠ 0 ∨ options.availabilityPeriodUs = 0 ∨ cadences.outputTickPeriodUs = 0 ∨
      options.pollPeriodUs = 0 ∨ options.signalSamplePeriodUs = some 0 ∨
      cadences.signalSamplePeriodUs = some 0 then .invalidOptions
  else if frames.head?.any (·.relativeTimeUs ≠ 0) then .invalidInput
  else if frames.getLast?.any (options.endTimeUs < ·.relativeTimeUs) then .invalidOptions
  else if !orderedFrom 0 frames then .invalidInput
  else if fitsEventBudget options cadences then .ok else .invalidOptions

/-- The next due time of a cadence, unless it passes the horizon. The sum is the 64-bit one. -/
def nextDeadline (current : MonotonicTimestamp) (period : Microseconds)
    (horizon : MonotonicTimestamp) : Option MonotonicTimestamp :=
  if maxTimestamp - current < period then none
  else
    let next := (current + period) % 2 ^ 64
    if next ≤ horizon then some next else none

def includeEarlier (earliest candidate : Option MonotonicTimestamp) :
    Option MonotonicTimestamp :=
  match candidate, earliest with
  | none, _ => earliest
  | some candidate, none => some candidate
  | some candidate, some earliest => some (if candidate < earliest then candidate else earliest)

/-! ### The scheduling loop -/

structure ReplayScheduleResult where
  status : ReplayScheduleStatus := .ok
  controllerStatus : ReplayControllerStatus := .ok
  stopStatus : ReplayControllerStatus := .ok
  framesDelivered : ℕ := 0
  timeoutPublications : ℕ := 0
  polledSamples : ℕ := 0
  outputTicks : ℕ := 0
  signalSamples : ℕ := 0
  endOfStream : Bool := false
  deriving DecidableEq, Repr

/-- The state of a run: the clock, the controller, the result so far, the recorded events and
the next due time of each cadence. -/
structure Run (P : Type) where
  now : MonotonicTimestamp
  controller : ReplayController P
  result : ReplayScheduleResult := {}
  events : List ReplayEvent := []
  availability : Option MonotonicTimestamp
  poll : Option MonotonicTimestamp
  signalSample : Option MonotonicTimestamp
  outputTick : Option MonotonicTimestamp

namespace Run

variable {P : Type} (stages : Stages P) (options : ReplayScheduleOptions) (cadences : Cadences)
  (due : MonotonicTimestamp) (r : Run P)

def ok : Bool := r.result.status = .ok

/-- Every failure sets the status, and leaves the round. -/
def whenOk (work : Run P → Run P) : Run P := if r.ok then work r else r

def withStatus (status : ReplayScheduleStatus) : Run P :=
  { r with result := { r.result with status } }

/-- A step of the controller that failed, or that had another input than the scheduled one. -/
def stepFailure (step : ReplayStepResult) : Run P :=
  { r with result := { r.result with
      status := .controllerFailure
      controllerStatus := if step.status = .ok then .telemetryFault else step.status } }

def record (kind : ReplayEventKind) : Run P := { r with events := r.events ++ [⟨due, kind⟩] }

def nextDue : Option MonotonicTimestamp :=
  let due := r.controller.nextFrameTime
  let due := includeEarlier due r.availability
  let due := includeEarlier due r.poll
  let due := includeEarlier due r.signalSample
  includeEarlier due r.outputTick

/-- The gate is asked before the clock moves. -/
def admitted : Bool × Run P :=
  match stages.gate with
  | none => (true, r)
  | some gate =>
    let answer := gate due r.controller.stages
    (answer.1, { r with controller := { r.controller with stages := answer.2 } })

def passGate : Run P :=
  let answer := r.admitted stages due
  if answer.1 then answer.2 else answer.2.withStatus .interrupted

/-- The clock never moves back. -/
def advance : Run P :=
  if r.now < due then { r with now := due }
  else if due = r.now then r
  else r.withStatus .clockFailure

def deliverFrame : Run P :=
  let step := r.controller.processNextFrame stages r.now
  let r := { r with controller := step.2 }
  if step.1.status ≠ .ok ∨ step.1.input ≠ .frame then r.stepFailure step.1
  else
    { r with result := { r.result with framesDelivered := r.result.framesDelivered + 1 } }.record
      due .frame

/-- The frames that are due, in the order of the recording. Each delivery that succeeds takes a
pending frame, so their number bounds the rounds. -/
def deliverFrames : ℕ → Run P → Run P
  | 0, r => r
  | rounds + 1, r =>
    if r.controller.nextFrameTime = some due then
      (r.deliverFrame stages due).whenOk (deliverFrames rounds)
    else r

/-- The end of the stream is told once, after the last frame. -/
def endStream : Run P :=
  if r.result.endOfStream = false ∧ r.controller.nextFrameTime = none then
    let step := r.controller.processNextFrame stages r.now
    let r := { r with controller := step.2 }
    if step.1.status ≠ .ok ∨ step.1.input ≠ .endOfStream then r.stepFailure step.1
    else { r with result := { r.result with endOfStream := true } }.record due .endOfStream
  else r

def serviceAvailability : Run P :=
  if r.availability = some due then
    let step := r.controller.processTimeout stages r.now
    let r := { r with controller := step.2 }
    if step.1.status ≠ .ok ∨ step.1.input ≠ .timeout then r.stepFailure step.1
    else
      { r with
        result := { r.result with timeoutPublications := r.result.timeoutPublications + 1 }
        availability := nextDeadline due options.availabilityPeriodUs options.endTimeUs }.record
        due .timeout
  else r

/-- A step of the controller without an input: its status is kept either way. -/
def operated (step : ReplayControllerStatus × ReplayController P) (work : Run P → Run P) :
    Run P :=
  let r := { r with
    controller := step.2, result := { r.result with controllerStatus := step.1 } }
  if step.1 ≠ .ok then r.withStatus .controllerFailure else work r

def samplePolls : Run P :=
  if r.poll = some due then
    r.operated (r.controller.samplePolledRules stages r.now) fun r =>
      { r with
        result := { r.result with polledSamples := r.result.polledSamples + 1 }
        poll := nextDeadline due options.pollPeriodUs options.endTimeUs }.record due .poll
  else r

def sampleObservers : Run P :=
  if r.signalSample = some due then
    r.operated (r.controller.sampleSignals stages r.now) fun r =>
      { r with
        result := { r.result with signalSamples := r.result.signalSamples + 1 }
        signalSample := cadences.signalSamplePeriodUs.bind
          (nextDeadline due · options.endTimeUs) }.record due .signalSample
  else r

def tickOutput : Run P :=
  if r.outputTick = some due then
    r.operated (r.controller.tickOutput stages r.now) fun r =>
      { r with
        result := { r.result with outputTicks := r.result.outputTicks + 1 }
        outputTick := nextDeadline due cadences.outputTickPeriodUs options.endTimeUs }.record
        due .outputTick
  else r

/-- **One round of the loop** at the time `due`. -/
def iteration : Run P :=
  ((((((((r.passGate stages due).whenOk (advance due)).whenOk fun r =>
    deliverFrames stages due r.controller.pending.length r).whenOk
    (endStream stages due)).whenOk
    (serviceAvailability stages options due)).whenOk
    (samplePolls stages options due)).whenOk
    (sampleObservers stages options cadences due)).whenOk
    (tickOutput stages options cadences due))

/-- The loop runs while the run is well and something is due. -/
def round : Option (Run P) :=
  if r.ok then r.nextDue.map fun due => r.iteration stages options cadences due else none

/-- After the loop the clock is moved to the horizon, and the controller is stopped. -/
def finish : Run P :=
  let r := if r.ok ∧ r.now < options.endTimeUs then r.passGate stages options.endTimeUs else r
  let r := r.whenOk (advance options.endTimeUs)
  let stopped := r.controller.stop stages r.now
  let r := { r with
    controller := stopped.2, result := { r.result with stopStatus := stopped.1 } }
  if r.ok ∧ stopped.1 ≠ .ok then
    { r with result := { r.result with
        status := .controllerFailure, controllerStatus := stopped.1 } }
  else r

end Run

/-- The cadences of a replay: the stage's own tick unless the options say otherwise, and the
signal samples only with observers. -/
def resolveCadences {P : Type} (stages : Stages P) (options : ReplayScheduleOptions) : Cadences where
  outputTickPeriodUs := options.outputTickPeriodUs.getD stages.tickPeriodUs
  signalSamplePeriodUs :=
    if stages.observed then some (options.signalSamplePeriodUs.getD options.pollPeriodUs) else none

/-- **A replay**, with a number of rounds for its loop; `none` when they do not suffice. -/
def runReplay {P : Type} (stages : Stages P) (fuel : ℕ) (frames : List TimedCanFrame)
    (now : MonotonicTimestamp) (options : ReplayScheduleOptions) (initial : P) : Option (Run P) :=
  let cadences := resolveCadences stages options
  let status := validate frames now options cadences
  let idle : Run P := ⟨now, { pending := frames, stages := initial }, {}, [], none, none, none, none⟩
  if status ≠ .ok then some (idle.withStatus status)
  else
    let started := idle.controller.start stages now
    let r := { idle with
      controller := started.2, result := { idle.result with controllerStatus := started.1 } }
    if started.1 ≠ .ok then some (r.withStatus .controllerFailure)
    else
      let r := { r with
        availability :=
          if options.availabilityPeriodUs ≤ options.endTimeUs then some options.availabilityPeriodUs
          else none
        poll := some 0
        signalSample := cadences.signalSamplePeriodUs.map fun _ => 0
        outputTick := some 0 }
      (While.run (fun r => r.round stages options cadences) fuel r).map fun r =>
        r.finish stages options

end AccessoryController.Replay
