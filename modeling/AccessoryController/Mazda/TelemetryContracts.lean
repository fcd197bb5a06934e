import AccessoryController.Mazda.VehicleState

/-!
# The contracts of the telemetry service

The configuration and the diagnostics that the service exchanges with the receive runtime below it
and with its own users. The runtime is not part of the repository; its lifecycle, its result codes
and the counters it reports are given as far as the service reads them.

## Main definitions

* `TransportDiagnostics`: what the runtime reports
* `Diagnostics`: what the service publishes
* `TelemetryConfig.valid`: the configurations a start accepts
* `requiresGlobalHealthEvaluation`: the transitions that can affect every message group
-/

namespace AccessoryController.Mazda

open VehicleCore

/-- The lifecycle the runtime reports; `stopped` stands for every state the service does not
name. -/
inductive RuntimeLifecycle
  | stopped | running | stopping | faulted
  deriving DecidableEq, Repr

inductive RuntimeResultCode
  | ok | invalidConfiguration | alreadyRunning | notRunning | stopping | timeout
  | capacityExceeded | invalidState | faulted
  deriving DecidableEq, Repr

structure AcquisitionStatistics where
  framesReceived : ℕ
  framesDropped : ℕ
  queueOverflows : ℕ
  driverErrors : ℕ
  missedFrames : ℕ
  controllerResets : ℕ
  busOffEvents : ℕ
  deriving DecidableEq, Repr

/-- What the runtime reports after every received frame and every timeout. -/
structure TransportDiagnostics where
  lifecycle : RuntimeLifecycle
  transport : TransportHealth
  hasLastFrame : Bool
  lastFrameUs : MonotonicTimestamp
  framesProcessed : ℕ
  framesIgnored : ℕ
  framesMalformed : ℕ
  processorFaults : ℕ
  workBudgetPauses : ℕ
  acquisition : AcquisitionStatistics
  deriving DecidableEq, Repr

inductive LifecycleState
  | stopped | running | stopping | faulted
  deriving DecidableEq, Repr

inductive ResultCode
  | ok | invalidConfiguration | invalidState | capacityExceeded | invalidSubscription
  | alreadyRunning | notRunning | faulted | timeout
  deriving DecidableEq, Repr

structure AcquisitionMetrics where
  framesReceived : ℕ := 0
  framesProcessed : ℕ := 0
  framesDropped : ℕ := 0
  queueOverflows : ℕ := 0
  driverErrors : ℕ := 0
  missedFrames : ℕ := 0
  controllerResets : ℕ := 0
  busOffEvents : ℕ := 0
  deriving DecidableEq, Repr

structure Diagnostics where
  lifecycle : LifecycleState := .stopped
  transport : TransportHealth := .stopped
  acquisition : AcquisitionMetrics := {}
  workBudgetPauses : ℕ := 0
  deriving DecidableEq, Repr

/-- The configuration of the service; the scheduling fields are handed to the runtime. -/
structure TelemetryConfig where
  freshness : VehicleFreshnessPolicy := {}
  transportSilenceTimeoutUs : Microseconds := 1000000
  maxFramesPerBatch : ℕ := 16
  availabilityServiceTargetUs : Microseconds := 10000
  maxBatchTimeUs : Microseconds := 2000
  maxRunnableReceiveCalls : ℕ := 512
  maxRunnableTimeUs : Microseconds := 20000
  budgetPauseMs : ℕ := 1

def kRuntimeMaximumReceiveTimeoutUs : Microseconds := 60000000
def kRuntimeMaximumSilenceTimeoutUs : Microseconds := 300000000
def kRuntimeMaximumRunnableReceiveCalls : ℕ := 65535
def kRuntimeMaximumRunnableTimeUs : Microseconds := 1000000
def kRuntimeMaximumBudgetPauseMs : ℕ := 1000

def TelemetryConfig.valid (config : TelemetryConfig) : Bool :=
  config.transportSilenceTimeoutUs > 0 &&
  config.transportSilenceTimeoutUs ≤ kRuntimeMaximumSilenceTimeoutUs &&
  config.maxFramesPerBatch > 0 && config.maxRunnableReceiveCalls > 0 &&
  config.maxRunnableReceiveCalls ≤ kRuntimeMaximumRunnableReceiveCalls &&
  config.maxFramesPerBatch ≤ config.maxRunnableReceiveCalls &&
  config.maxBatchTimeUs > 0 && config.maxRunnableTimeUs > 0 &&
  config.maxBatchTimeUs ≤ kRuntimeMaximumRunnableTimeUs &&
  config.maxRunnableTimeUs ≤ kRuntimeMaximumRunnableTimeUs &&
  config.maxBatchTimeUs ≤ config.maxRunnableTimeUs && config.budgetPauseMs > 0 &&
  config.budgetPauseMs ≤ kRuntimeMaximumBudgetPauseMs &&
  config.availabilityServiceTargetUs > 0 &&
  config.availabilityServiceTargetUs ≤ kRuntimeMaximumReceiveTimeoutUs

/-- A sum of 64-bit counters, which stops at the largest. -/
def saturatingCounterAdd (value increment : ℕ) : ℕ :=
  if value > 2 ^ 64 - 1 - increment then 2 ^ 64 - 1 else value + increment

def decoderFramesProcessed (diagnostics : TransportDiagnostics) : ℕ :=
  saturatingCounterAdd (saturatingCounterAdd
    (saturatingCounterAdd diagnostics.framesProcessed diagnostics.framesIgnored)
    diagnostics.framesMalformed) diagnostics.processorFaults

def acquisitionMetrics (diagnostics : TransportDiagnostics) : AcquisitionMetrics where
  framesReceived := diagnostics.acquisition.framesReceived
  framesProcessed := decoderFramesProcessed diagnostics
  framesDropped := diagnostics.acquisition.framesDropped
  queueOverflows := diagnostics.acquisition.queueOverflows
  driverErrors := diagnostics.acquisition.driverErrors
  missedFrames := diagnostics.acquisition.missedFrames
  controllerResets := diagnostics.acquisition.controllerResets
  busOffEvents := diagnostics.acquisition.busOffEvents

def RuntimeLifecycle.toService : RuntimeLifecycle → LifecycleState
  | .running => .running
  | .stopping => .stopping
  | .faulted => .faulted
  | .stopped => .stopped

def mapRuntimeStatus : RuntimeResultCode → ResultCode
  | .ok => .ok
  | .invalidConfiguration => .invalidConfiguration
  | .alreadyRunning => .alreadyRunning
  | .notRunning => .notRunning
  | .stopping | .timeout => .timeout
  | .capacityExceeded => .capacityExceeded
  | .invalidState => .invalidState
  | .faulted => .faulted

def transportRequiresFailoff (transport : TransportHealth) : Bool :=
  transport == .timedOut || transport == .faulted || transport == .stopped

theorem transportRequiresFailoff_iff {transport : TransportHealth} :
    transportRequiresFailoff transport = true ↔ transportDown transport := by
  cases transport <;> decide

/-- The transitions after which every group is published once: a failure, so that every subscriber
sees it, and the recovery from one, since a newer frame restores the transport of all groups. -/
def requiresGlobalHealthEvaluation (previousLifecycle : LifecycleState)
    (previousTransport : TransportHealth) (lifecycle : LifecycleState)
    (transport : TransportHealth) (initialized : Bool) : Bool :=
  if !initialized then true
  else if (lifecycle != previousLifecycle || transport != previousTransport) &&
      (lifecycle == .faulted || transportRequiresFailoff transport) then true
  else if lifecycle == .running &&
      (previousLifecycle == .faulted || previousTransport == .timedOut ||
        previousTransport == .faulted) && transport == .live then true
  else false

end AccessoryController.Mazda
