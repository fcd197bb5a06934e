import AccessoryController.Replay.Scheduler
import AccessoryController.Mazda.TelemetryContracts

/-!
# The lifecycle of the replay controller

The controller of a replay owns telemetry, the action engine and the observers, and it drives the
output stage. A start can fail at every one of them, a step can fail in the engine, the
observers, the stage or the publication barrier, and a stop can leave telemetry running. Each exit
has a cleanup of its own. The collaborators are parameters over a state of their own; what reaches
the output stage, and how telemetry stood whenever subscriptions were given up, is recorded.

## Main definitions

* `Parts`: the collaborators of the controller
* `Implementation`: the controller, with the record of what it did
* `Implementation.start`, `Implementation.stop`, `Implementation.destroy`: the lifecycle calls
* `ControllerCall`: the calls of the controller, one step each
-/

namespace AccessoryController.Replay

open VehicleCore
open Mazda (LifecycleState)

/-- The calls that reach the output stage. -/
inductive StageCall
  | start | tick | failOff | stop
  deriving DecidableEq, Repr

/-- What the engine answers to an attach. A failed attach leaves the engine attached when its
rollback failed too. -/
inductive EngineAttach
  | attached
  | failed (stillAttached : Bool)
  deriving DecidableEq, Repr

/-- The collaborators of a controller, over their own state `P`. -/
structure Parts (P : Type) where
  /-- The replay clock. -/
  now : P → MonotonicTimestamp
  /-- Configures the output stage, at construction. -/
  outputConfigure : P → Bool × P
  outputStart : MonotonicTimestamp → P → Bool × P
  outputTick : MonotonicTimestamp → P → Bool × P
  outputFailOff : MonotonicTimestamp → P → Bool × P
  outputStop : MonotonicTimestamp → P → Bool × P
  engineAttach : P → EngineAttach × P
  engineDetach : P → Bool × P
  engineSamplePolledRules : P → Bool × P
  /-- No injected observer is null. -/
  observersConfigured : Bool
  observersEmpty : Bool
  subscribeNotifiedSignals : P → Bool × P
  observersDetach : P → Bool × P
  observersSample : P → Bool × P
  observersOpen : P → P
  telemetryStart : P → (ResultCode × LifecycleState) × P
  telemetryStop : P → (ResultCode × LifecycleState) × P
  /-- The lifecycle that a telemetry reports which is not stopped. -/
  telemetryLifecycle : P → LifecycleState × P
  drainHostNotifications : P → Bool × P
  barrierCancel : P → P
  /-- The epoch of the next publication, unless the barrier is cancelled. -/
  barrierPrepareStep : P → Option ℕ × P
  barrierWaitFor : ℕ → Microseconds → P → Bool × P
  sourceGrant : Grant → P → Bool × P
  sourceLastReceive : P → ReceiveStatus × P
  sourceEndOfStream : P → Bool
  nextFrameTime : P → Option MonotonicTimestamp

/-- The largest count of a signed microsecond duration. -/
def maximumTimeoutUs : Microseconds := 2 ^ 63 - 1

def validSynchronizationTimeout (timeoutUs : Microseconds) : Bool :=
  if timeoutUs = 0 then false else decide (timeoutUs ≤ maximumTimeoutUs)

/-- The controller with its collaborators. `output` lists the calls of the output stage in order,
and `detachments` the lifecycle of telemetry at each detach of the engine or the observers. -/
structure Implementation (P : Type) where
  state : ControllerState := .ready
  configured : Bool
  engineAttached : Bool := false
  observersAttached : Bool := false
  telemetry : LifecycleState := .stopped
  parts : P
  output : List StageCall := []
  detachments : List LifecycleState := []

namespace Implementation

variable {P : Type} (parts : Parts P) (synchronizationTimeoutUs : Microseconds)
  (c : Implementation P)

/-- The controller as constructed: the output stage is configured. -/
def construct (start : P) : Implementation P :=
  let configured := parts.outputConfigure start
  { configured := configured.1, parts := configured.2 }

def running : Bool := decide (c.state = .running)

/-! ### The output stage -/

/-- A call of the output stage, on replay time. -/
def callStage (call : StageCall) (answer : MonotonicTimestamp → P → Bool × P) :
    Bool × Implementation P :=
  let answered := answer (parts.now c.parts) c.parts
  (answered.1, { c with parts := answered.2, output := c.output ++ [call] })

def tickCurrent : ReplayControllerStatus × Implementation P :=
  let ticked := c.callStage parts .tick parts.outputTick
  (if ticked.1 then .ok else .outputFault, ticked.2)

def failOffOutput : ReplayControllerStatus × Implementation P :=
  let off := c.callStage parts .failOff parts.outputFailOff
  (if off.1 then .ok else .outputFault, off.2)

/-- Fails the output off, then releases the stage. -/
def releaseOutput : ReplayControllerStatus × Implementation P :=
  let off := c.failOffOutput parts
  let released := off.2.callStage parts .stop parts.outputStop
  (if off.1 = .ok ∧ released.1 = true then .ok else .outputFault, released.2)

def fail (status : ReplayControllerStatus) : ReplayControllerStatus × Implementation P :=
  (status, ({ c with state := .failed }.failOffOutput parts).2)

def failStep (status : ReplayControllerStatus) : ReplayStepResult × Implementation P :=
  let failed := c.fail parts status
  (⟨failed.1, .fault⟩, failed.2)

/-! ### The engine and the observers -/

def engineAttach : Bool × Implementation P :=
  match parts.engineAttach c.parts with
  | (.attached, p) => (true, { c with parts := p, engineAttached := true })
  | (.failed stillAttached, p) => (false, { c with parts := p, engineAttached := stillAttached })

/-- A failed detach keeps the engine attached. -/
def engineDetach : Implementation P :=
  let detached := parts.engineDetach c.parts
  { c with parts := detached.2, engineAttached := !detached.1,
           detachments := c.detachments ++ [c.telemetry] }

/-- The observers are detached whether or not every subscription could be given up. -/
def observersDetach : Implementation P :=
  { c with parts := (parts.observersDetach c.parts).2, observersAttached := false,
           detachments := c.detachments ++ [c.telemetry] }

def observersAttach : Bool × Implementation P :=
  if c.observersAttached || !parts.observersConfigured then (false, c)
  else if parts.observersEmpty then (true, { c with observersAttached := true })
  else
    let subscribed := parts.subscribeNotifiedSignals c.parts
    let c := { c with parts := subscribed.2 }
    if subscribed.1 then (true, { c with observersAttached := true })
    else (false, c.observersDetach parts)

/-- Subscriptions may only change while telemetry is stopped. -/
def detachSignalConsumers : Implementation P :=
  let c := if c.engineAttached then c.engineDetach parts else c
  if c.observersAttached then c.observersDetach parts else c

/-! ### Telemetry -/

def telemetryStart : ResultCode × Implementation P :=
  let started := parts.telemetryStart c.parts
  (started.1.1, { c with parts := started.2, telemetry := started.1.2 })

def telemetryStop : ResultCode × Implementation P :=
  let stopped := parts.telemetryStop c.parts
  (stopped.1.1, { c with parts := stopped.2, telemetry := stopped.1.2 })

/-- Reads the lifecycle of telemetry. Its workers may have moved it meanwhile, except that a
stopped telemetry has no workers. -/
def lifecycle : LifecycleState × Implementation P :=
  if c.telemetry = .stopped then (.stopped, c)
  else
    let read := parts.telemetryLifecycle c.parts
    (read.1, { c with parts := read.2, telemetry := read.1 })

def drainHostNotifications : Bool × Implementation P :=
  let drained := parts.drainHostNotifications c.parts
  (drained.1, { c with parts := drained.2 })

def cancelBarrier : Implementation P := { c with parts := parts.barrierCancel c.parts }

/-! ### The lifecycle calls -/

/-- A controller left failed releases the stage through a later stop or its destruction; one left
stopped releases it here. -/
def cleanupFailedStart : Implementation P :=
  let c := c.cancelBarrier parts
  let before := c.lifecycle parts
  let c := if before.1 ≠ .stopped then (before.2.telemetryStop parts).2 else before.2
  let after := c.lifecycle parts
  let telemetryQuiescent := decide (after.1 = .stopped)
  let c := if telemetryQuiescent then after.2.detachSignalConsumers parts else after.2
  let state := if telemetryQuiescent && !c.engineAttached && !c.observersAttached then
    ControllerState.stopped else .failed
  let c := { c with state := state }
  if c.state = .stopped then (c.releaseOutput parts).2 else (c.failOffOutput parts).2

/-- An abandoned start: the stage is failed off and released. -/
def abandonStart : Implementation P :=
  { (c.releaseOutput parts).2 with state := .stopped }

def start : ReplayControllerStatus × Implementation P :=
  if c.state ≠ .ready then (.invalidState, c)
  else if !validSynchronizationTimeout synchronizationTimeoutUs then (.configurationFailed, c)
  else
    let c := { c with state := .starting }
    let started := c.callStage parts .start parts.outputStart
    let c := started.2
    -- A stage may have changed output or acquired resources before its start failed.
    if !started.1 then (.outputFault, c.abandonStart parts)
    else if !c.configured || !parts.observersConfigured then
      (.configurationFailed, c.abandonStart parts)
    else
      let attached := c.engineAttach parts
      let c := attached.2
      if !attached.1 then
        let c := if c.engineAttached then c.engineDetach parts else c
        (.telemetryFault, c.abandonStart parts)
      else
        let observing := c.observersAttach parts
        let c := observing.2
        if !observing.1 then (.telemetryFault, c.cleanupFailedStart parts)
        else
          let telemetry := c.telemetryStart parts
          let c := telemetry.2
          if telemetry.1 ≠ .ok then
            (mapTelemetryStatus telemetry.1, c.cleanupFailedStart parts)
          else
            let drained := c.drainHostNotifications parts
            let c := drained.2
            if !drained.1 then (.telemetryFault, c.cleanupFailedStart parts)
            else
              let ticked := c.tickCurrent parts
              let c := ticked.2
              if ticked.1 ≠ .ok then (.outputFault, c.cleanupFailedStart parts)
              else (.ok, { c with parts := parts.observersOpen c.parts, state := .running })

def stop : ReplayControllerStatus × Implementation P :=
  if c.state ≠ .running ∧ c.state ≠ .failed then (.invalidState, c)
  else
    let c := c.cancelBarrier parts
    let telemetry := c.telemetryStop parts
    let after := telemetry.2.lifecycle parts
    let telemetryQuiescent := decide (after.1 = .stopped)
    let c := if telemetryQuiescent then after.2.detachSignalConsumers parts else after.2
    -- Every stop fails the output off before it releases the stage.
    let output := c.releaseOutput parts
    let c := output.2
    if !telemetryQuiescent then
      (if telemetry.1 = .timeout then .synchronizationTimeout else .telemetryFault,
        { c with state := .failed })
    else
      (if telemetry.1 = .faulted then .telemetryFault
        else if telemetry.1 ≠ .ok then mapTelemetryStatus telemetry.1
        else output.1,
        { c with state := .stopped })

/-- The destructor: a second bounded attempt covers a stop that can be retried. -/
def destroy : Implementation P :=
  if c.state = .running ∨ c.state = .failed then
    let first := c.stop parts
    if first.1 = .synchronizationTimeout then (first.2.stop parts).2 else first.2
  else c

/-! ### The steps of a run -/

/-- One input: a receive is granted to the worker, the publication that it completes is awaited,
and the notifications are drained. -/
def processInput (grant : Grant) : ReplayStepResult × Implementation P :=
  if c.state ≠ .running then ({}, c)
  else
    let epoch := parts.barrierPrepareStep c.parts
    let c := { c with parts := epoch.2 }
    match epoch.1 with
    | none => c.failStep parts .telemetryFault
    | some epoch =>
      let granted := parts.sourceGrant grant c.parts
      let c := { c with parts := granted.2 }
      if !granted.1 then c.failStep parts .telemetryFault
      else
        let completed := parts.barrierWaitFor epoch synchronizationTimeoutUs c.parts
        let c := { c with parts := completed.2 }
        if !completed.1 then c.failStep parts .synchronizationTimeout
        else
          let drained := c.drainHostNotifications parts
          let c := drained.2
          if !drained.1 then c.failStep parts .telemetryFault
          else
            let received := parts.sourceLastReceive c.parts
            let c := { c with parts := received.2 }
            match received.1 with
            | .frame => (⟨.ok, .frame⟩, c)
            | .timeout =>
              (⟨.ok, if grant = .receive ∧ parts.sourceEndOfStream c.parts then .endOfStream
                else .timeout⟩, c)
            | .fault | .notStarted => c.failStep parts .telemetryFault

def processNextFrame : ReplayStepResult × Implementation P :=
  if c.state ≠ .running then ({}, c)
  else if (parts.nextFrameTime c.parts).any (parts.now c.parts < ·) then
    (⟨.invalidState, .timeout⟩, c)
  else c.processInput parts synchronizationTimeoutUs .receive

def processTimeout : ReplayStepResult × Implementation P :=
  c.processInput parts synchronizationTimeoutUs .timeout

def processSourceFault : ReplayStepResult × Implementation P :=
  c.processInput parts synchronizationTimeoutUs .fault

/-- The periodic work of the engine or the observers: a fault fails the controller. -/
def sample (operation : P → Bool × P) : ReplayControllerStatus × Implementation P :=
  if c.state ≠ .running then (.invalidState, c)
  else
    let sampled := operation c.parts
    let c := { c with parts := sampled.2 }
    if sampled.1 then (.ok, c) else c.fail parts .telemetryFault

def samplePolledRules : ReplayControllerStatus × Implementation P :=
  c.sample parts parts.engineSamplePolledRules

def sampleSignals : ReplayControllerStatus × Implementation P :=
  c.sample parts parts.observersSample

def tickOutput : ReplayControllerStatus × Implementation P :=
  if c.state ≠ .running then (.invalidState, c)
  else
    let ticked := c.tickCurrent parts
    if ticked.1 = .ok then ticked else ticked.2.fail parts ticked.1

end Implementation

/-- The calls of the controller. Between two calls the clock and the workers go on. -/
inductive ControllerCall (P : Type)
  | start | processNextFrame | processTimeout | processSourceFault | samplePolledRules
  | sampleSignals | tickOutput | stop
  | meanwhile (change : P → P)

namespace Implementation

variable {P : Type} (parts : Parts P) (synchronizationTimeoutUs : Microseconds)

/-- One call, with the status that it returns. -/
def step (c : Implementation P) :
    ControllerCall P → Implementation P × ReplayControllerStatus
  | .start => (c.start parts synchronizationTimeoutUs).swap
  | .processNextFrame =>
    let stepped := c.processNextFrame parts synchronizationTimeoutUs
    (stepped.2, stepped.1.status)
  | .processTimeout =>
    let stepped := c.processTimeout parts synchronizationTimeoutUs
    (stepped.2, stepped.1.status)
  | .processSourceFault =>
    let stepped := c.processSourceFault parts synchronizationTimeoutUs
    (stepped.2, stepped.1.status)
  | .samplePolledRules => (c.samplePolledRules parts).swap
  | .sampleSignals => (c.sampleSignals parts).swap
  | .tickOutput => (c.tickOutput parts).swap
  | .stop => (c.stop parts).swap
  | .meanwhile change => ({ c with parts := change c.parts }, .ok)

end Implementation

end AccessoryController.Replay
