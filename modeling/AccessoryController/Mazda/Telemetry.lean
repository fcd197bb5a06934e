import AccessoryController.Mazda.Lighting
import AccessoryController.Mazda.NotificationDescriptors
import AccessoryController.SignalNotification.Channel

/-!
# The telemetry service

The service decodes received frames into its processing state and publishes that state twice: as a
snapshot to polling readers, and as readings on the notification channels. Both are selective. The
snapshot is copied only when a frame moved the watermark of its message. A channel is published
only when a frame of its message arrived, when a freshness deadline of its message passed, or when
the transport or the lifecycle changed in a way that can affect every message.

The receive runtime and the sink are not part of the repository: what the runtime reports and how
the sink answers are inputs of the calls. Ownership checks of the calling thread, profiling and
debug recording are left out.

## Main definitions

* `Service`: the state of the service
* `Service.process`, `Service.onDiagnostics`: the two calls of the runtime
* `Service.publishNotifications`: the selective publication
* `Service.start`, `Service.beginStop`, `Service.finishStop`: the lifecycle
* `Service.step`: one call on the service
-/

namespace AccessoryController.Mazda

open VehicleCore
open VehicleCore.SignalSlots
open SignalNotification

/-- The state and the diagnostics handed to polling readers. -/
structure PublishedSnapshot (Signal : Type → Type) [SignalSlots Signal] where
  state : VehicleState Signal := {}
  diagnostics : Diagnostics := {}

structure PublicationStore (Signal : Type → Type) [SignalSlots Signal] where
  config : TelemetryConfig := {}
  published : PublishedSnapshot Signal := {}

namespace PublicationStore

variable {Signal : Type → Type} [SignalSlots Signal]

def configure (store : PublicationStore Signal) (config : TelemetryConfig) :
    PublicationStore Signal × ResultCode :=
  if store.published.diagnostics.lifecycle ≠ .stopped then (store, .invalidState)
  else
    ({ config
       published :=
        { store.published with
          state := store.published.state.applyFreshnessPolicy config.freshness } }, .ok)

def publish (store : PublicationStore Signal) (state : VehicleState Signal)
    (diagnostics : Diagnostics) : PublicationStore Signal :=
  { store with published := { state, diagnostics } }

def publishDiagnostics (store : PublicationStore Signal) (diagnostics : Diagnostics) :
    PublicationStore Signal :=
  { store with published := { store.published with diagnostics } }

def reset (store : PublicationStore Signal) (diagnostics : Diagnostics) :
    PublicationStore Signal :=
  { store with
    published :=
      { state := VehicleState.applyFreshnessPolicy {} store.config.freshness, diagnostics } }

end PublicationStore

/-- The service. The channels are one per descriptor; `notificationDueObservations` remembers for
each the observation whose passed deadline has been published. -/
structure Service (Signal : Type → Type) [SignalSlots Signal] [Inhabited TransportDiagnostics]
    (κ : Type) where
  config : TelemetryConfig := {}
  lightingSink : Bool := false
  publication : PublicationStore Signal := {}
  processingState : VehicleState Signal := {}
  processingStateChanged : Bool := false
  lastTransportReceiveUs : Option MonotonicTimestamp := none
  runtimeDiagnostics : TransportDiagnostics := default
  channels : (channel : NotificationChannelId) → Channel channel.Value κ := fun _ => {}
  notificationDueObservations : NotificationChannelId → Option MonotonicTimestamp := fun _ => none
  lifecycleState : LifecycleState := .stopped
  publishedLifecycle : LifecycleState := .stopped
  publishedTransport : TransportHealth := .stopped
  publishedHealthInitialized : Bool := false
  pendingObservationIdentifier : Option ℕ := none
  lighting : LightingState := {}

/-- What marks a change of a message's record: whether it has a frame, and of when. -/
def messageMutationMarker {Signal : Type → Type} [SignalSlots Signal]
    (state : VehicleState Signal) (identifier : ℕ) : Option MonotonicTimestamp :=
  (state.messageHealthFor identifier).map MessageHealthState.lastFrameUs

/-- How starting the runtime went: whether it reset its processor, the answer, and whether the
runtime reported a fault of its own. -/
structure RuntimeStart where
  resets : Bool
  status : RuntimeResultCode
  faulted : Bool
  deriving DecidableEq, Repr

/-- How stopping the runtime went, and what it reports afterwards. -/
structure RuntimeStop where
  status : RuntimeResultCode
  diagnostics : TransportDiagnostics
  deriving DecidableEq, Repr

namespace Service

variable {Signal : Type → Type} [SignalSlots Signal] [Inhabited TransportDiagnostics]
  [Inhabited HealthObservation] {κ : Type}

/-- A service as constructed from its configuration. -/
def construct (config : TelemetryConfig) (lightingSink : Bool) : Service Signal κ :=
  { config
    lightingSink
    publication := { config }
    processingState := VehicleState.applyFreshnessPolicy {} config.freshness }

/-- A freshness deadline of a channel has passed and has not been published yet. The test fixture
is left to the channel that owns its slot. -/
def notificationDescriptorDue (service : Service Signal κ) (state : VehicleState Signal)
    (nowUs : MonotonicTimestamp) (channel : NotificationChannelId) : Bool :=
  if ¬ channel.id.valid then false
  else if !hasValue (state.signal channel) then false
  else
    match freshnessTimeoutUs (state.signal channel) with
    | none => false
    | some timeout =>
      if nowUs ≤ saturatingAdd (lastUpdateUs (state.signal channel)) timeout then false
      else service.notificationDueObservations channel != some (lastUpdateUs (state.signal channel))

/-- The reading a channel publishes. -/
def channelReading (state : VehicleState Signal) (transport : TransportHealth)
    (nowUs : MonotonicTimestamp) (channel : NotificationChannelId) : Reading channel.Value :=
  state.readingAt (state.signal channel) channel.identifier nowUs channel.validation transport

/-- The channels a publication covers: all of them on a global transition, else those of the
message a frame arrived for and those of every message with a due channel. -/
def selected (service : Service Signal κ) (state : VehicleState Signal)
    (nowUs : MonotonicTimestamp) (affectedIdentifier : Option ℕ) (globalHealthTransition : Bool)
    (channel : NotificationChannelId) : Bool :=
  globalHealthTransition || affectedIdentifier == some channel.identifier ||
    NotificationChannelId.all.any fun other =>
      service.notificationDescriptorDue state nowUs other &&
        other.identifier == channel.identifier

/-- The visits of the covered descriptors, which touch only their own channel and mark. -/
def visitDescriptors (service : Service Signal κ) (state : VehicleState Signal)
    (transport : TransportHealth) (nowUs : MonotonicTimestamp) (affectedIdentifier : Option ℕ)
    (globalHealthTransition : Bool) : Service Signal κ :=
  let covered := service.selected state nowUs affectedIdentifier globalHealthTransition
  { service with
    channels := fun channel =>
      if covered channel then
        ((service.channels channel).publish (channelReading state transport nowUs channel)).1
      else service.channels channel
    notificationDueObservations := fun channel =>
      if covered channel && service.notificationDescriptorDue state nowUs channel then
        some (lastUpdateUs (state.signal channel))
      else service.notificationDueObservations channel }

/-- One publication of the lighting output, if a sink is bound. -/
def publishLighting (service : Service Signal κ) (state : VehicleState Signal)
    (transport : TransportHealth) (nowUs : MonotonicTimestamp) (accepted : Bool) :
    Service Signal κ × Option LightingUpdate :=
  if !service.lightingSink then (service, none)
  else
    let (lighting, offer) := service.lighting.publishLighting
      (lightingUpdate state transport service.lastTransportReceiveUs
        service.config.transportSilenceTimeoutUs nowUs) accepted nowUs
    ({ service with lighting }, offer)

/-- Publishes the covered channels, and the lighting output after them when it is included. -/
def publishNotifications (service : Service Signal κ) (state : VehicleState Signal)
    (transport : TransportHealth) (nowUs : MonotonicTimestamp) (affectedIdentifier : Option ℕ)
    (globalHealthTransition includeLighting accepted : Bool) :
    Service Signal κ × Option LightingUpdate :=
  let service := service.visitDescriptors state transport nowUs affectedIdentifier
    globalHealthTransition
  if includeLighting then service.publishLighting state transport nowUs accepted
  else (service, none)

/-- Services the passed deadlines before a frame is decoded, so that a due transition and the
recovery after it are both published. -/
def serviceDueNotifications (service : Service Signal κ) (nowUs : MonotonicTimestamp) :
    Service Signal κ :=
  if service.lifecycleState ≠ .running then service
  else
    (service.publishNotifications service.processingState service.runtimeDiagnostics.transport
      nowUs none false false false).1

/-- Publishes the snapshot and the channels after the runtime reported. -/
def publishCurrent (service : Service Signal κ) (nowUs : MonotonicTimestamp) (accepted : Bool) :
    Service Signal κ × Option LightingUpdate :=
  let diagnostics : Diagnostics :=
    { lifecycle := service.lifecycleState
      transport := service.runtimeDiagnostics.transport
      acquisition := acquisitionMetrics service.runtimeDiagnostics
      workBudgetPauses := service.runtimeDiagnostics.workBudgetPauses }
  let globalHealthTransition := requiresGlobalHealthEvaluation service.publishedLifecycle
    service.publishedTransport service.lifecycleState diagnostics.transport
    service.publishedHealthInitialized
  let service :=
    if service.processingStateChanged then
      { service with
        publication := service.publication.publish service.processingState diagnostics
        processingStateChanged := false }
    else { service with publication := service.publication.publishDiagnostics diagnostics }
  let (service, offer) := service.publishNotifications service.processingState
    diagnostics.transport nowUs service.pendingObservationIdentifier globalHealthTransition true
    accepted
  ({ service with
      pendingObservationIdentifier := none
      publishedLifecycle := service.lifecycleState
      publishedTransport := diagnostics.transport
      publishedHealthInitialized := true }, offer)

/-- A received frame. -/
def process (isValid : RawCanFrame → Bool) (service : Service Signal κ) (frame : RawCanFrame)
    (nowUs : MonotonicTimestamp) : Service Signal κ × DecodeValidity :=
  let service := { service with pendingObservationIdentifier := some frame.identifier }
  let service := service.serviceDueNotifications nowUs
  let before := messageMutationMarker service.processingState frame.identifier
  let (state, status) := Candidate.decode isValid frame service.processingState
  let after := messageMutationMarker state frame.identifier
  ({ service with
      processingState := state
      processingStateChanged := service.processingStateChanged || before != after }, status)

/-- A report of the runtime, after a frame or a timeout. -/
def onDiagnostics (service : Service Signal κ) (diagnostics : TransportDiagnostics)
    (nowUs : MonotonicTimestamp) (accepted : Bool) : Service Signal κ × Option LightingUpdate :=
  publishCurrent
    { service with
      runtimeDiagnostics := diagnostics
      lifecycleState := diagnostics.lifecycle.toService
      lastTransportReceiveUs :=
        if diagnostics.hasLastFrame then some diagnostics.lastFrameUs
        else service.lastTransportReceiveUs } nowUs accepted

/-- What the runtime calls when it starts. -/
def reset (service : Service Signal κ) : Service Signal κ :=
  { service with
    processingState := VehicleState.applyFreshnessPolicy {} service.config.freshness
    processingStateChanged := false
    notificationDueObservations := fun _ => none
    pendingObservationIdentifier := none
    lastTransportReceiveUs := none
    runtimeDiagnostics := default
    lighting := { service.lighting with sent := false, failure := false } }

def resetPublication (service : Service Signal κ) (diagnostics : Diagnostics) :
    Service Signal κ :=
  { service with publication := service.publication.reset diagnostics }

def channelsStart (service : Service Signal κ) : Bool :=
  NotificationChannelId.all.all fun channel => (service.channels channel).start.2 = .ok

/-- Starts the channels in order, up to the first that refuses. -/
def startChannels (service : Service Signal κ) : Service Signal κ :=
  let started channel := (NotificationChannelId.all.takeWhile fun other =>
    (service.channels other).start.2 = .ok).contains channel
  { service with
    channels := fun channel =>
      if started channel then (service.channels channel).start.1 else service.channels channel }

def channelsStop (service : Service Signal κ) : Bool :=
  NotificationChannelId.all.all fun channel => (service.channels channel).stop.2 ≠ .invalidState

/-- Stops every channel that lets itself be stopped. -/
def stopChannels (service : Service Signal κ) : Service Signal κ :=
  { service with channels := fun channel => (service.channels channel).stop.1 }

/-- Fails a start or a stop into a lifecycle. -/
def fail (service : Service Signal κ) (lifecycle : LifecycleState) (transport : TransportHealth) :
    Service Signal κ :=
  resetPublication { service with lifecycleState := lifecycle } { lifecycle, transport }

/-- The state a start prepares before the runtime is started: the processing state is empty, the
lighting output is dark, and nothing has been published. -/
def prepareStart (service : Service Signal κ) (nowUs : MonotonicTimestamp) (accepted : Bool) :
    Service Signal κ :=
  resetPublication
    { service with
      processingState := VehicleState.applyFreshnessPolicy {} service.config.freshness
      notificationDueObservations := fun _ => none
      pendingObservationIdentifier := none
      publishedHealthInitialized := false
      lastTransportReceiveUs := none
      runtimeDiagnostics :=
        { (default : TransportDiagnostics) with
          lifecycle := .running, transport := .awaitingTraffic }
      lighting :=
        if service.lightingSink then .publishStartupBlack accepted nowUs
        else { service.lighting with sent := false, failure := false }
      lifecycleState := .running } { lifecycle := .running, transport := .awaitingTraffic }

/-- The inputs of a start: its two clock readings, the sink's answers to the dark command and to
the first publication, how starting the runtime goes, and whether the dispatcher starts. -/
structure StartInputs where
  blackUs : MonotonicTimestamp
  nowUs : MonotonicTimestamp
  blackAccepted : Bool
  accepted : Bool
  runtime : RuntimeStart
  dispatcherStarts : Bool
  deriving DecidableEq, Repr

def start (service : Service Signal κ) (inputs : StartInputs) : Service Signal κ × ResultCode :=
  if service.lifecycleState = .running then (service, .alreadyRunning)
  else if service.lifecycleState = .faulted then (service, .faulted)
  else if service.lifecycleState = .stopping then (service, .invalidState)
  else if !service.config.valid then (service, .invalidConfiguration)
  else
    let service := service.prepareStart inputs.blackUs inputs.blackAccepted
    if !service.channelsStart then (service.startChannels.fail .faulted .faulted, .faulted)
    else
      let service := (service.startChannels.publishCurrent inputs.nowUs inputs.accepted).1
      let service := if inputs.runtime.resets then service.reset else service
      if inputs.runtime.status ≠ .ok then
        let service := service.stopChannels
        (if inputs.runtime.faulted then service.fail .faulted .faulted
          else service.fail .stopped .stopped, mapRuntimeStatus inputs.runtime.status)
      else if !inputs.dispatcherStarts then (service.stopChannels.fail .faulted .faulted, .faulted)
      else (service, .ok)

/-- A stop first shows the lifecycle it heads for. -/
def beginStop (service : Service Signal κ) : Service Signal κ :=
  if service.lifecycleState = .stopped then service
  else { service with lifecycleState := .stopping }

/-- The inputs of the rest of a stop: whether the service had faulted, how stopping the runtime
went, and whether the dispatcher ended in time. -/
structure StopInputs where
  wasFaulted : Bool
  runtime : RuntimeStop
  workersDone : Bool
  deriving DecidableEq, Repr

/-- The rest of a stop, after the runtime has stopped calling the service. -/
def finishStop (service : Service Signal κ) (inputs : StopInputs) :
    Service Signal κ × ResultCode :=
  let stopped := inputs.runtime.status == .ok || inputs.runtime.status == .notRunning
  let service :=
    { service with
      publication := service.publication.publishDiagnostics
        { lifecycle := .stopping
          transport := .stopped
          acquisition := acquisitionMetrics inputs.runtime.diagnostics
          workBudgetPauses := inputs.runtime.diagnostics.workBudgetPauses } }
  if !inputs.workersDone then (service, .timeout)
  else if !stopped || !service.channelsStop then
    ({ service.stopChannels with lifecycleState := .faulted },
      if !stopped then mapRuntimeStatus inputs.runtime.status else .faulted)
  else
    let service := resetPublication { service.stopChannels with
      runtimeDiagnostics := inputs.runtime.diagnostics }
      { lifecycle := .stopped
        transport := .stopped
        acquisition := acquisitionMetrics inputs.runtime.diagnostics
        workBudgetPauses := inputs.runtime.diagnostics.workBudgetPauses }
    ({ service with
        processingState := {}
        processingStateChanged := false
        notificationDueObservations := fun _ => none
        pendingObservationIdentifier := none
        publishedLifecycle := .stopped
        publishedTransport := .stopped
        publishedHealthInitialized := true
        lastTransportReceiveUs := none
        lifecycleState := .stopped }, if inputs.wasFaulted then .faulted else .ok)

/-- Reconfigures a stopped service; `runtime` is the runtime's answer to its own part. -/
def configure (service : Service Signal κ) (config : TelemetryConfig)
    (runtime : RuntimeResultCode) : Service Signal κ × ResultCode :=
  if service.lifecycleState ≠ .stopped then (service, .invalidState)
  else if !config.valid then (service, .invalidConfiguration)
  else if runtime ≠ .ok then (service, mapRuntimeStatus runtime)
  else
    match service.publication.configure config with
    | (_, .ok) =>
      ({ service with
          publication := (service.publication.configure config).1
          config
          notificationDueObservations := fun _ => none }, .ok)
    | (_, status) => (service, status)

def bindLightingSink (service : Service Signal κ) : Service Signal κ × ResultCode :=
  if service.lifecycleState ≠ .stopped then (service, .invalidState)
  else ({ service with lightingSink := true }, .ok)

end Service

/-- The calls that reach the service: those of its owner, those of the runtime with the clock
readings they make, and those on its channels by their subscribers and by the dispatcher. -/
inductive Call (κ : Type)
  | configure (config : TelemetryConfig) (runtime : RuntimeResultCode)
  | bindLightingSink
  | start (inputs : Service.StartInputs)
  | beginStop
  | finishStop (inputs : Service.StopInputs)
  | process (frame : RawCanFrame) (nowUs : MonotonicTimestamp)
  | onDiagnostics (diagnostics : TransportDiagnostics) (nowUs : MonotonicTimestamp)
    (accepted : Bool)
  | channel (channel : NotificationChannelId) (call : SignalNotification.Call channel.Value κ)

/-- The answer to a call. -/
inductive Answer
  | none
  | result (code : ResultCode)
  | processed (validity : DecodeValidity)
  | offered (offer : Option LightingUpdate)

/-- One call on the service. -/
def Service.step {Signal : Type → Type} [SignalSlots Signal] [Inhabited TransportDiagnostics]
    [Inhabited HealthObservation] {κ : Type} (isValid : RawCanFrame → Bool)
    (service : Service Signal κ) : Call κ → Service Signal κ × Answer
  | .configure config runtime => (service.configure config runtime).map id .result
  | .bindLightingSink => service.bindLightingSink.map id .result
  | .start inputs => (service.start inputs).map id .result
  | .beginStop => (service.beginStop, .none)
  | .finishStop inputs => (service.finishStop inputs).map id .result
  | .process frame nowUs => (service.process isValid frame nowUs).map id .processed
  | .onDiagnostics diagnostics nowUs accepted =>
    (service.onDiagnostics diagnostics nowUs accepted).map id .offered
  | .channel channel call =>
    ({ service with
        channels := Function.update service.channels channel
          ((service.channels channel).step channel.number call).1 }, .none)

end AccessoryController.Mazda
