import AccessoryController.Library.Machine
import Mathlib.Data.List.Basic

/-!
# The profile dispatcher

Publications of a profile runtime are delivered by a task of their own. An enqueuer raises the
pending flag and gives a binary semaphore; the dispatcher takes it, reads the flags and makes a
dispatch pass, or leaves its loop when a shutdown is requested and nothing is pending. The
lifecycle owner starts and stops the task, and waits for it with bounded waits; the destructor
waits without a bound. A run interleaves the owner, the dispatcher and the enqueuers at every
critical section, semaphore operation and poll of the firmware path.

The telemetry runtime is not part of this repository. It answers requests as the environment
pleases, enqueuers act only while it runs, and a stop that succeeds has waited for them. The
mutex under which frames are processed orders the enqueuers; here they may interleave freely.
Calls that the source rejects at once, from another owner or from a callback, do nothing.

## Main definitions

* `TaskPlace`, `OwnerPlace`: where the dispatcher and the lifecycle owner are
* `DispatchService`: the flags, the semaphore and the places
* `DispatchService.step`: one move of a run, with the event that it makes
-/

namespace AccessoryController.ProfileRuntime

/-- What a lifecycle request answers; the failures of the runtime are among these. -/
inductive ResultCode
  | ok | invalidState | faulted | timeout | notRunning
  deriving DecidableEq, Repr

/-- Where the dispatcher task is. -/
inductive TaskPlace
  | absent
  /-- It waits for the semaphore. -/
  | taking
  /-- It has taken the semaphore, and is about to read the flags. -/
  | taken
  /-- It makes a dispatch pass. -/
  | dispatching
  /-- The pass has ended; the task is still marked active. -/
  | dispatched
  /-- It has left its loop. -/
  | leaving
  /-- It has marked its exit, and is about to suspend itself. -/
  | exiting
  | suspended
  deriving DecidableEq, Repr

/-- The task has left its loop. -/
def TaskPlace.left (place : TaskPlace) : Prop :=
  place = .leaving ∨ place = .exiting ∨ place = .suspended

instance (place : TaskPlace) : Decidable place.left := inferInstanceAs (Decidable (_ ∨ _))

/-- The call of the owner that enqueues a dispatch; a stop may retry one that timed out. -/
inductive Enqueue
  | start
  | stop (retrying : Bool)
  deriving DecidableEq, Repr

/-- Who ends the dispatcher: a stop, with what the runtime answered it, or the destructor. -/
inductive Shutdown
  | stop (retrying : Bool) (result : ResultCode)
  | destructor
  deriving DecidableEq, Repr

/-- Where the lifecycle owner is, by what it is about to do. -/
inductive OwnerPlace
  | idle
  /-- It marks the dispatcher started and lowers the flags. -/
  | starting
  /-- It claims the static task storage. -/
  | claiming
  /-- It takes back the mark of a dispatcher that could not be started. -/
  | abandoning (code : ResultCode)
  /-- It drains the semaphore. -/
  | draining
  | creating
  /-- It marks the provider active. -/
  | activating
  | enabling
  /-- It raises the pending flag. -/
  | raising (enqueue : Enqueue)
  /-- It gives the semaphore after that. -/
  | waking (enqueue : Enqueue)
  | startingRuntime
  /-- It is inside the start of the runtime. -/
  | awaitingRuntime
  | stoppingRuntime (retrying : Bool)
  /-- It polls until nothing is pending or active. -/
  | quiescing (shutdown : Shutdown) (waited : ℕ)
  | requesting (shutdown : Shutdown)
  /-- It gives the semaphore after it requested the shutdown. -/
  | signalling (shutdown : Shutdown)
  /-- It polls until the dispatcher has exited and is suspended. -/
  | awaitingExit (shutdown : Shutdown) (waited : ℕ)
  | deleting (shutdown : Shutdown)
  /-- It marks the dispatcher as no longer started. -/
  | unmarking (shutdown : Shutdown)
  /-- It marks the provider inactive. -/
  | finishing (retrying : Bool) (result : ResultCode)
  /-- It is in the destructor, after that of the runtime. -/
  | destroying
  | destroyed
  deriving DecidableEq, Repr

/-- The service: the flags under the dispatch mutex, the exit flag, the owner's provider flag,
the semaphore, and where everyone is. `raised` counts the enqueuers that have raised the pending
flag and have not given the semaphore yet. -/
structure DispatchService where
  dispatcherStarted : Bool := false
  dispatchEnabled : Bool := false
  dispatchShutdownRequested : Bool := false
  dispatchPending : Bool := false
  dispatchActive : Bool := false
  dispatcherExited : Bool := true
  providerActive : Bool := false
  dispatchWake : Bool := false
  task : TaskPlace := .absent
  owner : OwnerPlace := .idle
  runtimeRunning : Bool := false
  raised : ℕ := 0
  deriving DecidableEq, Repr

inductive LifecycleCall
  | start | stop | destroy
  deriving DecidableEq, Repr

/-- A move: the owner makes a call or takes its next step, the dispatcher steps, or an enqueuer
raises the flag or gives the semaphore. An owner's step carries the answer to what it asks for
there, and whether a runtime that failed to start runs nevertheless. -/
inductive DispatchMove
  | call (call : LifecycleCall)
  | owner (answer : ResultCode) (running : Bool)
  | dispatcher
  | raise
  | give
  deriving DecidableEq, Repr

inductive DispatchEvent
  | enqueued
  | passBegan
  | passEnded
  | exited
  | startReturned (code : ResultCode)
  | stopReturned (code : ResultCode)
  deriving DecidableEq, Repr

/-- The polls of a bounded wait. -/
def kDispatchQuiescenceTimeoutMs : ℕ := 1000

namespace DispatchService

/-- The owner makes a call. The runtime is stopped exactly if it does not run, and its destructor
waits for the enqueuers. -/
def call (s : DispatchService) (call : LifecycleCall) : DispatchService × Option DispatchEvent :=
  if s.owner ≠ .idle then (s, none)
  else
    match call with
    | .start =>
      if s.providerActive then (s, some (.startReturned .invalidState))
      else ({ s with owner := .starting }, none)
    | .stop =>
      if !s.runtimeRunning && !s.providerActive then (s, some (.stopReturned .notRunning))
      else ({ s with owner := .raising (.stop s.providerActive) }, none)
    | .destroy =>
      if s.raised = 0 then ({ s with runtimeRunning := false, owner := .destroying }, none)
      else (s, none)

/-- The owner ends the start of a dispatcher that could not be started. -/
def abandon (s : DispatchService) (code : ResultCode) : DispatchService × Option DispatchEvent :=
  ({ s with dispatcherStarted := false, dispatcherExited := true, owner := .idle },
    some (.startReturned code))

/-- The runtime's answer to a start. It fails only after its enqueuers have ended, unless it runs
nevertheless. -/
def startRuntime (s : DispatchService) (answer : ResultCode) (running : Bool) :
    DispatchService × Option DispatchEvent :=
  if answer = .ok ∨ running then ({ s with owner := .idle }, some (.startReturned answer))
  else if s.raised = 0 then
    ({ s with runtimeRunning := false, owner := .idle }, some (.startReturned answer))
  else (s, none)

/-- The runtime's answer to a stop: success, once the enqueuers have ended, or a failure. A
runtime that does not run says so. -/
def stopRuntime (s : DispatchService) (retrying : Bool) (answer : ResultCode) :
    DispatchService × Option DispatchEvent :=
  if !s.runtimeRunning then
    ({ s with owner := .quiescing (.stop retrying .notRunning) 0 }, none)
  else
    match answer with
    | .ok =>
      if s.raised = 0 then
        ({ s with runtimeRunning := false, owner := .quiescing (.stop retrying .ok) 0 }, none)
      else (s, none)
    | .notRunning => (s, none)
    | code => ({ s with owner := .idle }, some (.stopReturned code))

/-- One poll for quiescence. A stop gives up after the last one. -/
def pollQuiescence (s : DispatchService) (shutdown : Shutdown) (waited : ℕ) :
    DispatchService × Option DispatchEvent :=
  if !s.dispatchPending && !s.dispatchActive then ({ s with owner := .requesting shutdown }, none)
  else
    match shutdown with
    | .destructor => (s, none)
    | .stop _ _ =>
      if waited + 1 < kDispatchQuiescenceTimeoutMs then
        ({ s with owner := .quiescing shutdown (waited + 1) }, none)
      else ({ s with owner := .idle }, some (.stopReturned .timeout))

/-- The request of the shutdown. -/
def request (s : DispatchService) (shutdown : Shutdown) :
    DispatchService × Option DispatchEvent :=
  match shutdown with
  | .stop retrying result =>
    if !s.dispatcherStarted then ({ s with owner := .finishing retrying result }, none)
    else
      ({ s with
          dispatchEnabled := true
          dispatchShutdownRequested := true
          owner := .signalling shutdown }, none)
  | .destructor =>
    ({ s with dispatchShutdownRequested := true, owner := .signalling shutdown }, none)

/-- One poll for the exit. A stop gives up after the check that follows its wait. -/
def pollExit (s : DispatchService) (shutdown : Shutdown) (waited : ℕ) :
    DispatchService × Option DispatchEvent :=
  if s.dispatcherExited && s.task == .suspended then ({ s with owner := .deleting shutdown }, none)
  else
    match shutdown with
    | .destructor => (s, none)
    | .stop _ _ =>
      if waited < kDispatchQuiescenceTimeoutMs then
        ({ s with owner := .awaitingExit shutdown (waited + 1) }, none)
      else ({ s with owner := .idle }, some (.stopReturned .timeout))

/-- The owner takes its next step. -/
def ownerStep (s : DispatchService) (answer : ResultCode) (running : Bool) :
    DispatchService × Option DispatchEvent :=
  match s.owner with
  | .idle => (s, none)
  | .starting =>
    if s.dispatcherStarted then
      ({ s with owner := .idle }, some (.startReturned .invalidState))
    else
      ({ s with
          dispatcherStarted := true
          dispatchEnabled := false
          dispatchShutdownRequested := false
          dispatchPending := false
          dispatchActive := false
          dispatcherExited := false
          owner := .claiming }, none)
  | .claiming =>
    if answer = .ok then ({ s with owner := .draining }, none)
    else ({ s with owner := .abandoning answer }, none)
  | .abandoning code => s.abandon code
  | .draining => ({ s with dispatchWake := false, owner := .creating }, none)
  | .creating =>
    if answer = .ok then ({ s with task := .taking, owner := .activating }, none)
    else ({ s with owner := .abandoning .faulted }, none)
  | .activating => ({ s with providerActive := true, owner := .enabling }, none)
  | .enabling => ({ s with dispatchEnabled := true, owner := .raising .start }, none)
  | .raising enqueue =>
    ({ s with dispatchPending := true, owner := .waking enqueue }, some .enqueued)
  | .waking .start => ({ s with dispatchWake := true, owner := .startingRuntime }, none)
  | .waking (.stop retrying) =>
    ({ s with dispatchWake := true, owner := .stoppingRuntime retrying }, none)
  | .startingRuntime => ({ s with runtimeRunning := true, owner := .awaitingRuntime }, none)
  | .awaitingRuntime => s.startRuntime answer running
  | .stoppingRuntime retrying => s.stopRuntime retrying answer
  | .quiescing shutdown waited => s.pollQuiescence shutdown waited
  | .requesting shutdown => s.request shutdown
  | .signalling shutdown =>
    ({ s with dispatchWake := true, owner := .awaitingExit shutdown 0 }, none)
  | .awaitingExit shutdown waited => s.pollExit shutdown waited
  | .deleting shutdown => ({ s with task := .absent, owner := .unmarking shutdown }, none)
  | .unmarking (.stop retrying result) =>
    ({ s with dispatcherStarted := false, owner := .finishing retrying result }, none)
  | .unmarking .destructor =>
    ({ s with dispatcherStarted := false, owner := .destroyed }, none)
  | .finishing retrying result =>
    ({ s with providerActive := false, owner := .idle },
      some (.stopReturned (if retrying && result == .notRunning then .ok else result)))
  | .destroying =>
    if !s.dispatcherStarted then ({ s with owner := .destroyed }, none)
    else ({ s with dispatchEnabled := true, owner := .quiescing .destructor 0 }, none)
  | .destroyed => (s, none)

/-- The dispatcher with the semaphore reads the flags: it leaves its loop, begins a pass, or goes
back to wait. -/
def readFlags (s : DispatchService) : DispatchService × Option DispatchEvent :=
  if s.dispatchShutdownRequested && !s.dispatchPending then ({ s with task := .leaving }, none)
  else if s.dispatchEnabled && s.dispatchPending then
    ({ s with dispatchPending := false, dispatchActive := true, task := .dispatching },
      some .passBegan)
  else ({ s with task := .taking }, none)

/-- The dispatcher steps; without a semaphore to take it waits. -/
def dispatcherStep (s : DispatchService) : DispatchService × Option DispatchEvent :=
  match s.task with
  | .absent => (s, none)
  | .taking => if s.dispatchWake then ({ s with dispatchWake := false, task := .taken }, none)
    else (s, none)
  | .taken => s.readFlags
  | .dispatching => ({ s with task := .dispatched }, some .passEnded)
  | .dispatched => ({ s with dispatchActive := false, task := .taking }, none)
  | .leaving => ({ s with dispatcherExited := true, task := .exiting }, some .exited)
  | .exiting => ({ s with task := .suspended }, none)
  | .suspended => (s, none)

/-- One move of a run. -/
def step (s : DispatchService) : DispatchMove → DispatchService × Option DispatchEvent
  | .call call => s.call call
  | .owner answer running => s.ownerStep answer running
  | .dispatcher => s.dispatcherStep
  | .raise =>
    if s.runtimeRunning then
      ({ s with dispatchPending := true, raised := s.raised + 1 }, some .enqueued)
    else (s, none)
  | .give =>
    if s.raised = 0 then (s, none)
    else ({ s with dispatchWake := true, raised := s.raised - 1 }, none)

end DispatchService

end AccessoryController.ProfileRuntime
