import AccessoryController.Library.Machine
import AccessoryController.Replay.Scheduler

/-!
# The step protocol of the host controller

The controller and the telemetry worker meet in two places. The gated source lets the worker
receive only when the controller has granted it an input, and the publication barrier parks the
worker after each publication until the controller prepares the next step. Each is a mutex with a
condition variable. A run interleaves the controller, the worker, and whoever cancels the barrier
and stops the source, at every point where a mutex is taken or a thread sleeps; timeouts and
spurious wakeups are moves as well.

Of the worker, whose loop is not part of this repository, it is taken that it completes exactly
one publication after each receive that it was granted.

## Main definitions

* `GatedReplaySource`, `PublicationBarrier`: the two protected objects
* `WorkerPlace`, `ControllerPlace`: where the two threads are
* `HostReplay.step`: one move of a run
-/

namespace AccessoryController.Replay

open VehicleCore

/-! ### The gated source -/

structure GatedReplaySource where
  grant : Grant := .timeout
  lastReceive : ReceiveStatus := .timeout
  running : Bool := false
  cancelled : Bool := false
  grantPending : Bool := false
  deriving DecidableEq, Repr

namespace GatedReplaySource

def start (g : GatedReplaySource) : GatedReplaySource :=
  { g with running := true, cancelled := false, grantPending := false, lastReceive := .timeout }

def stop (g : GatedReplaySource) : GatedReplaySource :=
  { g with running := false, cancelled := true, grantPending := false }

/-- A grant is refused while another one is pending. -/
def offer (g : GatedReplaySource) (grant : Grant) : Bool × GatedReplaySource :=
  if !g.running || g.cancelled || g.grantPending then (false, g)
  else (true, { g with grant, grantPending := true })

/-- What a receive waits for. -/
def wakes (g : GatedReplaySource) : Bool := g.grantPending || g.cancelled || !g.running

end GatedReplaySource

/-! ### The publication barrier -/

/-- The epochs are 64 bits wide. -/
structure PublicationBarrier where
  completed : ℕ := 0
  released : ℕ := 0
  cancelled : Bool := false
  deriving DecidableEq, Repr

namespace PublicationBarrier

/-- A completed publication: its epoch, unless the barrier is cancelled. -/
def complete (b : PublicationBarrier) : Option ℕ × PublicationBarrier :=
  if b.cancelled then (none, b)
  else
    let epoch := (b.completed + 1) % 2 ^ 64
    (some epoch, { b with completed := epoch })

/-- What a publication waits for. -/
def passes (b : PublicationBarrier) (epoch : ℕ) : Bool := b.cancelled || epoch ≤ b.released

/-- Releases the publications so far, and tells the epoch of the next one. -/
def prepareStep (b : PublicationBarrier) : Option ℕ × PublicationBarrier :=
  if b.cancelled then (none, b)
  else (some ((b.completed + 1) % 2 ^ 64),
    if b.released < b.completed then { b with released := b.completed } else b)

/-- What a step waits for. -/
def reached (b : PublicationBarrier) (epoch : ℕ) : Bool := b.cancelled || epoch ≤ b.completed

/-- What the wait of a step answers when it ends. -/
def waitFor (b : PublicationBarrier) (epoch : ℕ) : Bool :=
  b.reached epoch && !b.cancelled && epoch ≤ b.completed

def cancel (b : PublicationBarrier) : PublicationBarrier :=
  { b with cancelled := true, released := b.completed }

end PublicationBarrier

/-! ### The threads -/

/-- Where the worker is. -/
inductive WorkerPlace
  | absent | ready
  /-- Inside a receive, about to look at the gate. -/
  | receiving
  | asleepReceive
  /-- It took a grant, and is about to receive from the source. -/
  | granted (grant : Grant)
  /-- It has the result, and is about to note it at the gate. -/
  | noting (status : ReceiveStatus)
  /-- Its granted receive has returned; it processes the result and publishes. -/
  | processing
  /-- Its receive has returned without a grant. -/
  | returned
  | asleepPublish (epoch : ℕ)
  /-- Inside a publication, woken and about to look at the barrier. -/
  | wokenPublish (epoch : ℕ)
  | exited
  deriving DecidableEq, Repr

/-- Where the worker is after a notification of the barrier. -/
def WorkerPlace.notified : WorkerPlace → WorkerPlace
  | .asleepPublish epoch => .wokenPublish epoch
  | place => place

/-- What the worker may choose: to go on, to publish although it had no grant, or to leave. -/
inductive WorkerChoice
  | proceed | publish | leave
  deriving DecidableEq, Repr

/-- Where the controller is. -/
inductive ControllerPlace
  | idle
  | prepared (grant : Grant) (epoch : ℕ)
  | waiting (grant : Grant) (epoch : ℕ) (asleep : Bool)
  /-- Its publication was seen: the notifications are drained. -/
  | draining (grant : Grant)
  | reading (grant : Grant)
  | readingEnd (grant : Grant)
  deriving DecidableEq, Repr

/-- Where the controller is after a notification of the barrier. -/
def ControllerPlace.notified : ControllerPlace → ControllerPlace
  | .waiting grant epoch _ => .waiting grant epoch false
  | place => place

inductive Move
  | start (ok : Bool) | launch (ok : Bool) | processInput (grant : Grant) | offer
  | checkWait | waitTimeout | wakeController | drain (ok : Bool) | readLast | readEnd
  | operationFault | advanceClock (target : MonotonicTimestamp)
  | worker (choice : WorkerChoice) | wakeWorker
  | cancel | cancelNotify | stopGate | stopNotify | stopSource | stopped (quiescent : Bool)
  deriving DecidableEq, Repr

/-- A granted receive: its grant, its result, and whether it left the source exhausted. -/
structure Receipt where
  grant : Grant
  status : ReceiveStatus
  exhausted : Bool
  deriving DecidableEq, Repr

/-- The host replay: the protected objects, the source, and the two threads, with the history of
the grants, of their results, and of the publications that followed. -/
structure HostReplay where
  gate : GatedReplaySource := {}
  barrier : PublicationBarrier := {}
  pending : List TimedCanFrame
  /-- The acquisition source behind the gate runs. -/
  sourceRuns : Bool := false
  clock : MonotonicTimestamp := 0
  state : ControllerState := .ready
  controller : ControllerPlace := .idle
  worker : WorkerPlace := .absent
  /-- A notification that follows a change of the flags, outside of the mutex. -/
  cancelNotifies : Bool := false
  stopNotifies : Bool := false
  /-- The acquisition source is stopped after the notification. -/
  stopsSource : Bool := false
  /-- Every grant that was made. -/
  grants : List Grant := []
  /-- Every granted receive. -/
  results : List Receipt := []
  /-- How many granted receives were followed by a publication. -/
  published : ℕ := 0

namespace HostReplay

variable (s : HostReplay)

/-- Whoever sleeps at the barrier wakes up. -/
def notifyBarrier : HostReplay :=
  { s with
    worker := s.worker.notified, controller := s.controller.notified }

/-- The worker wakes up when it sleeps at the gate. -/
def notifyGate : HostReplay :=
  { s with worker := if s.worker = .asleepReceive then .receiving else s.worker }

/-- A step that fails leaves the controller failed. -/
def failStep (status : ReplayControllerStatus) : HostReplay × Option ReplayStepResult :=
  ({ s with state := .failed, controller := .idle }, some ⟨status, .fault⟩)

def report (input : ReplayInputResult) : HostReplay × Option ReplayStepResult :=
  ({ s with controller := .idle }, some ⟨.ok, input⟩)

/-- The result of a granted receive. -/
def receiveFor : Grant → ReceiveStatus × List TimedCanFrame
  | .receive =>
    let result := ReplayAcquisitionSource.receive s.sourceRuns s.clock s.pending
    (result.1.1, result.2)
  | .timeout => (.timeout, s.pending)
  | .fault => (.fault, s.pending)

/-- The worker publishes: it parks until its epoch is released. -/
def publish : HostReplay :=
  match s.barrier.complete with
  | (none, _) => { s with worker := .ready }
  | (some epoch, barrier) =>
    let s := { s with barrier }.notifyBarrier
    { s with worker := if barrier.passes epoch then .ready else .asleepPublish epoch }

/-- The next step of the worker. -/
def workerStep (choice : WorkerChoice) : HostReplay :=
  match s.worker with
  | .absent | .exited | .asleepReceive | .asleepPublish _ => s
  | .ready => { s with worker := if choice = .leave then .exited else .receiving }
  | .receiving =>
    if !s.gate.wakes then { s with worker := .asleepReceive }
    else if !s.gate.running then { s with worker := .returned }
    else if s.gate.cancelled then
      { s with gate := { s.gate with lastReceive := .timeout }, worker := .returned }
    else
      { s with gate := { s.gate with grantPending := false }, worker := .granted s.gate.grant }
  | .granted grant =>
    let result := s.receiveFor grant
    { s with
      pending := result.2
      results := s.results ++ [⟨grant, result.1, result.2.isEmpty⟩]
      worker := .noting result.1 }
  | .noting status => { s with gate := { s.gate with lastReceive := status }, worker := .processing }
  | .processing => { s with published := s.published + 1 }.publish
  | .returned =>
    match choice with
    | .proceed => { s with worker := .ready }
    | .publish => s.publish
    | .leave => { s with worker := .exited }
  | .wokenPublish epoch =>
    { s with worker := if s.barrier.passes epoch then .ready else .asleepPublish epoch }

/-- The wait of a step ends. -/
def endWait (grant : Grant) (epoch : ℕ) : HostReplay × Option ReplayStepResult :=
  if s.barrier.waitFor epoch then ({ s with controller := .draining grant }, none)
  else s.failStep .synchronizationTimeout

/-- **One move of a run**, with the result of the step when it ends one. A move that is not
possible changes nothing. -/
def step : Move → HostReplay × Option ReplayStepResult
  | .start ok =>
    if s.state ≠ .ready then (s, none)
    else if ok then
      ({ s with
          state := .starting, sourceRuns := true, gate := s.gate.start, worker := .ready }, none)
    else ({ s with state := .stopped }, none)
  | .launch ok =>
    if s.state ≠ .starting then (s, none)
    else ({ s with state := if ok then .running else .failed }, none)
  | .processInput grant =>
    if s.controller ≠ .idle then (s, none)
    else if s.state ≠ .running then (s, some {})
    else
      match s.barrier.prepareStep with
      | (none, _) => s.failStep .telemetryFault
      | (some epoch, barrier) =>
        -- The parked worker is told when something was released.
        let s := if s.barrier.released < s.barrier.completed then { s with barrier }.notifyBarrier
          else { s with barrier }
        ({ s with controller := .prepared grant epoch }, none)
  | .offer =>
    match s.controller with
    | .prepared grant epoch =>
      match s.gate.offer grant with
      | (false, _) => s.failStep .telemetryFault
      | (true, gate) =>
        let s := { s with
          gate, controller := .waiting grant epoch false, grants := s.grants ++ [grant] }
        (s.notifyGate, none)
    | _ => (s, none)
  | .checkWait =>
    match s.controller with
    | .waiting grant epoch false =>
      if s.barrier.reached epoch then s.endWait grant epoch
      else ({ s with controller := .waiting grant epoch true }, none)
    | _ => (s, none)
  | .waitTimeout =>
    match s.controller with
    | .waiting grant epoch _ => s.endWait grant epoch
    | _ => (s, none)
  | .wakeController =>
    match s.controller with
    | .waiting grant epoch _ => ({ s with controller := .waiting grant epoch false }, none)
    | _ => (s, none)
  | .drain ok =>
    match s.controller with
    | .draining grant =>
      if ok then ({ s with controller := .reading grant }, none) else s.failStep .telemetryFault
    | _ => (s, none)
  | .readLast =>
    match s.controller with
    | .reading grant =>
      match s.gate.lastReceive with
      | .frame => s.report .frame
      | .timeout =>
        if grant = .receive then ({ s with controller := .readingEnd grant }, none)
        else s.report .timeout
      | .fault | .notStarted => s.failStep .telemetryFault
    | _ => (s, none)
  | .readEnd =>
    match s.controller with
    | .readingEnd _ => s.report (if s.pending.isEmpty then .endOfStream else .timeout)
    | _ => (s, none)
  | .operationFault =>
    if s.controller = .idle ∧ s.state = .running then ({ s with state := .failed }, none)
    else (s, none)
  | .advanceClock target =>
    if s.controller = .idle then ({ s with clock := max s.clock target }, none) else (s, none)
  | .worker choice => (s.workerStep choice, none)
  | .wakeWorker =>
    match s.worker with
    | .asleepReceive => ({ s with worker := .receiving }, none)
    | .asleepPublish epoch => ({ s with worker := .wokenPublish epoch }, none)
    | _ => (s, none)
  | .cancel => ({ s with barrier := s.barrier.cancel, cancelNotifies := true }, none)
  | .cancelNotify =>
    if s.cancelNotifies then ({ s with cancelNotifies := false }.notifyBarrier, none) else (s, none)
  | .stopGate =>
    -- The controller stops telemetry, and so the gated source, after it cancelled the barrier.
    if s.barrier.cancelled then ({ s with gate := s.gate.stop, stopNotifies := true }, none)
    else (s, none)
  | .stopNotify =>
    if s.stopNotifies then
      ({ s with stopNotifies := false, stopsSource := true }.notifyGate, none)
    else (s, none)
  | .stopSource =>
    if s.stopsSource then ({ s with stopsSource := false, sourceRuns := false }, none)
    else (s, none)
  | .stopped quiescent =>
    if s.controller = .idle ∧ s.barrier.cancelled ∧ s.gate.running = false then
      ({ s with state := if quiescent then .stopped else .failed }, none)
    else (s, none)

/-- A host replay before its start. -/
def initial (frames : List TimedCanFrame) : HostReplay where
  pending := frames

end HostReplay

end AccessoryController.Replay
