import AccessoryController.Mazda.TelemetryContracts
import AccessoryController.ProfileRuntime.Runtime

/-!
# The profile runtime service

The service stands between the acquisition runtime and a provider. The runtime hands it frames and
reports its diagnostics; a report that the transport failed makes every signal unavailable, once
until the transport is live again. A call that changes the provider publishes what changed under
the same lock. A stop first shuts out frames and makes every signal unavailable; it then waits for
the runtime and for the dispatcher, while calls of the runtime may still come.

## Main definitions

* `merge`: the result of two calls that are published together
* `transportRequiresFailoff`: the reports of a failure
* `ServiceState κ`: a provider with its notifications and the latches of the service
* `ServiceState.start`, `process`, `onDiagnostics`, `stop`, `stopReturned`: the calls
* `ServiceState.step`: one call
-/

namespace AccessoryController.ProfileRuntime

open VehicleCore VehicleSignals AccessoryController.SignalNotification
open AccessoryController.Mazda (RuntimeLifecycle TransportDiagnostics)

variable {κ : Type}

/-- Adds the lists of a later result. A fault wins, and anything wins over nothing. -/
def merge (target source : ProviderProcessResult) : ProviderProcessResult where
  changed := source.changed.foldl appendUnique target.changed
  due := source.due.foldl appendUnique target.due
  recovered := source.recovered.foldl appendUnique target.recovered
  status :=
    if source.status = .faulted then .faulted
    else if target.status = .ignored then source.status
    else target.status

def transportRequiresFailoff (diagnostics : TransportDiagnostics) : Bool :=
  diagnostics.lifecycle == .faulted || diagnostics.lifecycle == .stopping ||
    diagnostics.lifecycle == .stopped || diagnostics.transport == .timedOut ||
    diagnostics.transport == .faulted || diagnostics.transport == .stopped

/-- What the runtime is told about a frame. -/
inductive ProcessStatus
  | ignored | processed | malformed | fault
  deriving DecidableEq, Repr

def mapProcessStatus : ProviderProcessStatus → ProcessStatus
  | .ignored => .ignored
  | .applied => .processed
  | .malformed | .invalidResults => .malformed
  | .faulted => .fault

/-- The readings of the clock in one call: by the provider, by a fault after it, and by the
publication. -/
structure CallTimes where
  callUs : MonotonicTimestamp
  faultUs : MonotonicTimestamp
  publishUs : MonotonicTimestamp

structure ServiceState (κ : Type) where
  runtime : RuntimeState κ
  stoppingRequested : Bool := false
  faultLatched : Bool := false
  providerActive : Bool := false
  /-- A stop waits for the runtime and for the dispatcher. -/
  stopUnderWay : Bool := false

/-- What a call answers and publishes. -/
structure ServiceAnswer where
  processed : Option ProcessStatus := none
  published : Option ProviderProcessResult := none

/-- The calls that reach a service. A stop is two moments, between which calls of the runtime and
of the dispatcher may come. -/
inductive ServiceCall (κ : Type)
  | start (times : CallTimes)
  | process (frame : RawCanFrame) (times : CallTimes)
  | onDiagnostics (diagnostics : TransportDiagnostics) (times : CallTimes)
  | stop (lifecycle : RuntimeLifecycle) (times : CallTimes)
  | stopReturned (quiesced : Bool) (nowUs : MonotonicTimestamp)
  | reset (nowUs : MonotonicTimestamp)
  | client (call : NotificationCall κ)

namespace ServiceState

/-- A service over a profile. -/
def create (κ : Type) (tables : ProfileTables) : ServiceState κ :=
  { runtime := .create κ tables true }

/-- The provider changes, and its notifications publish what changed. -/
def publish (s : ServiceState κ) (provider : ProfileState) (summary : ProviderProcessResult)
    (nowUs : MonotonicTimestamp) : ServiceState κ :=
  { s with runtime := (RuntimeState.notify { s.runtime with provider }
      (.publish summary fun id => provider.read id nowUs)).1 }

def resetProvider (s : ServiceState κ) (nowUs : MonotonicTimestamp) : ServiceState κ :=
  { s with runtime := { s.runtime with provider := (s.runtime.provider.reset nowUs).1 } }

/-- A start is refused while the provider is active or a stop is under way. -/
def start (s : ServiceState κ) (times : CallTimes) : ServiceState κ :=
  if s.providerActive || s.stopUnderWay then s
  else
    let r := (s.resetProvider times.callUs).runtime
    { runtime := (r.notify (.setRunning true (r.readings times.publishUs))).1
      stoppingRequested := false
      faultLatched := false
      providerActive := true
      stopUnderWay := false }

def process (isValid : RawCanFrame → Bool) (s : ServiceState κ) (frame : RawCanFrame)
    (times : CallTimes) : ServiceState κ × ServiceAnswer :=
  if s.stoppingRequested then (s, {})
  else
    let (provider, summary) := s.runtime.provider.process isValid frame times.callUs
    if summary.status = .faulted then
      let (provider, faulted) := provider.fault times.faultUs
      let summary := merge summary faulted
      ({ s with faultLatched := true }.publish provider summary times.publishUs,
        { processed := some (mapProcessStatus summary.status), published := some summary })
    else
      (s.publish provider summary times.publishUs,
        { processed := some (mapProcessStatus summary.status), published := some summary })

/-- A fault is made where none was made since the transport was live. -/
def onDiagnostics (s : ServiceState κ) (diagnostics : TransportDiagnostics) (times : CallTimes) :
    ServiceState κ × ServiceAnswer :=
  let (provider, summary) := s.runtime.provider.service times.callUs
  if transportRequiresFailoff diagnostics then
    if !s.faultLatched then
      let (provider, faulted) := provider.fault times.faultUs
      let summary := merge summary faulted
      ({ s with faultLatched := true }.publish provider summary times.publishUs,
        { published := some summary })
    else (s.publish provider summary times.publishUs, { published := some summary })
  else if diagnostics.lifecycle = .running ∧ diagnostics.transport = .live then
    ({ s with faultLatched := false }.publish provider summary times.publishUs,
      { published := some summary })
  else (s.publish provider summary times.publishUs, { published := some summary })

/-- The first moment of a stop. A service that is stopped is left alone. -/
def stop (s : ServiceState κ) (lifecycle : RuntimeLifecycle) (times : CallTimes) :
    ServiceState κ × ServiceAnswer :=
  if s.stopUnderWay || (lifecycle == .stopped && !s.providerActive) then (s, {})
  else
    let (provider, summary) := s.runtime.provider.fault times.callUs
    ({ s with stoppingRequested := true, faultLatched := true, stopUnderWay := true }.publish
      provider summary times.publishUs, { published := some summary })

/-- The last moment of a stop. Where the runtime stopped and no dispatch is in progress, the
notifications stop and the provider forgets its samples. -/
def stopReturned (s : ServiceState κ) (quiesced : Bool) (nowUs : MonotonicTimestamp) :
    ServiceState κ :=
  if !s.stopUnderWay then s
  else if quiesced ∧ s.runtime.notifications.quiescent then
    let r := (s.runtime.notify (.setRunning false (s.runtime.readings nowUs))).1
    { { s with runtime := r }.resetProvider nowUs with
      providerActive := false
      stopUnderWay := false }
  else { s with stopUnderWay := false }

/-- A call of a subscriber or of the dispatcher. -/
def client (s : ServiceState κ) (call : NotificationCall κ) : ServiceState κ :=
  match call with
  | .setRunning _ _ | .publish _ _ => s
  | call => { s with runtime := (s.runtime.notify call).1 }

/-- One call. -/
def step (isValid : RawCanFrame → Bool) (s : ServiceState κ) :
    ServiceCall κ → ServiceState κ × ServiceAnswer
  | .start times => (s.start times, {})
  | .process frame times => s.process isValid frame times
  | .onDiagnostics diagnostics times => s.onDiagnostics diagnostics times
  | .stop lifecycle times => s.stop lifecycle times
  | .stopReturned quiesced nowUs => (s.stopReturned quiesced nowUs, {})
  | .reset nowUs => (s.resetProvider nowUs, {})
  | .client call => (s.client call, {})

end ServiceState

end AccessoryController.ProfileRuntime
