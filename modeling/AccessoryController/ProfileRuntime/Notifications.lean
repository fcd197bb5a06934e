import AccessoryController.ProfileRuntime.Provider
import AccessoryController.SignalNotification.Channel

/-!
# Notifications of the profile runtime

Each signal of the catalogue that notifies has a channel of its own. The provider registers a
trampoline with the channel for each subscriber, and hands out a token that packs the index of
the channel with the slot and the generation of the registration. Registrations change only while
the provider is stopped and no callback is in progress; a stop that succeeds drops them all.

The check of the lifecycle owner belongs to the adapter, so that its outcome is an argument of a
call; so are the readings of the signals, which the provider takes while the call runs.

## Main definitions

* `NotificationState κ`: the channels with their registrations, for callbacks of type `κ`
* `encodeSubscription`, `decodeSubscription`: tokens
* `NotificationState.subscribe`, `unsubscribe`, `setRunning`, `publish`: the calls
* `NotificationState.step`: one call
-/

namespace AccessoryController.ProfileRuntime

open VehicleCore VehicleSignals AccessoryController.SignalNotification

/-! ### Tokens -/

def kChannelMask : BitVec 64 := 0xff

def kSlotMask : BitVec 64 := 0xff

def kGenerationMask : BitVec 64 := 0xffff

def kSlotShift : ℕ := 8

def kGenerationShift : ℕ := 16

def kUsedBits : BitVec 64 :=
  kChannelMask ||| (kSlotMask <<< kSlotShift) ||| (kGenerationMask <<< kGenerationShift)

/-- The place and the generation of a registration. -/
structure DecodedSubscription where
  channelIndex : ℕ
  slot : Slot
  generation : ℕ
  deriving DecidableEq, Repr

def nextGeneration (generation : ℕ) : ℕ := nextCounter 16 generation

def encodeSubscription (channelIndex slot generation : ℕ) : SignalSubscription where
  providerBits := BitVec.ofNat 64 (channelIndex + 1) ||| (BitVec.ofNat 64 slot <<< kSlotShift) |||
    (BitVec.ofNat 64 generation <<< kGenerationShift)

/-- The registration that a token names, where there are `channelCount` channels. -/
def decodeSubscription (subscription : SignalSubscription) (channelCount : ℕ) :
    Option DecodedSubscription :=
  let bits := subscription.providerBits
  if bits = 0 ∨ bits &&& ~~~kUsedBits ≠ 0 then none
  else
    let encodedChannel := (bits &&& kChannelMask).toNat
    let slot := ((bits >>> kSlotShift) &&& kSlotMask).toNat
    let generation := ((bits >>> kGenerationShift) &&& kGenerationMask).toNat
    if within : encodedChannel ≠ 0 ∧ encodedChannel ≤ channelCount ∧
        slot < kNotificationSubscribersPerChannel ∧ generation ≠ 0 then
      some ⟨encodedChannel - 1, ⟨slot, within.2.2.1⟩, generation⟩
    else none

/-- The status of a request whose channel answered with a failure. -/
def mapNotificationStatus : NotificationStatus → SignalStatus
  | .ok => .invalidState
  | .capacityExceeded => .capacityExceeded
  | .invalidSubscription => .invalidSubscription
  | .invalidCallback => .invalidArgument
  | .invalidState | .alreadyRunning | .notRunning => .invalidState
  | .noPending => .invalidState

/-! ### The state -/

/-- The subscriber of one slot of a channel. -/
structure NotificationRegistration (κ : Type) where
  callback : Option κ := none
  channelHandle : NotificationHandle := {}
  generation : ℕ := 0
  active : Bool := false

/-- A cleared registration keeps its generation. -/
def NotificationRegistration.clear {κ : Type} (registration : NotificationRegistration κ) :
    NotificationRegistration κ :=
  { generation := registration.generation }

/-- The identity that the channels of the runtime carry in their handles. -/
def runtimeChannelId : ℕ := 0

/-- The channel of a signal. Its callbacks are the trampoline with the slot of a registration. -/
structure NotificationChannelBinding (κ : Type) where
  id : SignalId := {}
  channel : Channel SignalValue Slot := {}
  registrations : Slot → NotificationRegistration κ := fun _ => {}

structure NotificationState (κ : Type) where
  channels : ℕ → NotificationChannelBinding κ := fun _ => {}
  channelCount : ℕ := 0
  running : Bool := false
  callbackActive : Bool := false

namespace NotificationChannelBinding

variable {κ : Type}

def setRegistration (binding : NotificationChannelBinding κ) (slot : Slot)
    (registration : NotificationRegistration κ) : NotificationChannelBinding κ :=
  { binding with registrations := Function.update binding.registrations slot registration }

/-- Drops the registration of one slot, if it is active. -/
def detach (binding : NotificationChannelBinding κ) (slot : Slot) :
    NotificationChannelBinding κ :=
  let registration := binding.registrations slot
  if !registration.active then binding
  else
    { binding with
      channel := (binding.channel.unsubscribe runtimeChannelId registration.channelHandle).1
    }.setRegistration slot registration.clear

/-- Drops every registration. -/
def detachAll (binding : NotificationChannelBinding κ) : NotificationChannelBinding κ :=
  (List.finRange kNotificationSubscribersPerChannel).foldl detach binding

/-- Publishes what the provider reads of the signal. -/
def publishInitial (readings : SignalId → Except SignalStatus SignalReading)
    (binding : NotificationChannelBinding κ) : NotificationChannelBinding κ :=
  match readings binding.id with
  | .ok initial => { binding with channel := (binding.channel.publish initial).1 }
  | .error _ => binding

/-- Publishes a signal that a result names. A signal that became stale and recovered within one
result is published as stale first. -/
def publishResult (result : ProviderProcessResult)
    (readings : SignalId → Except SignalStatus SignalReading)
    (binding : NotificationChannelBinding κ) : NotificationChannelBinding κ :=
  let due := decide (binding.id ∈ result.due)
  let changed := decide (binding.id ∈ result.changed)
  let recovered := decide (binding.id ∈ result.recovered)
  if !due && !changed && !recovered then binding
  else
    match readings binding.id with
    | .error _ => binding
    | .ok current =>
      let unavailable := binding.channel.current
      let channel :=
        if due && recovered && available unavailable then
          (binding.channel.publish { unavailable with availability := .stale }).1
        else binding.channel
      { binding with channel := (channel.publish current).1 }

end NotificationChannelBinding

/-- The channels of a provider, one for each signal that notifies, in the catalogue's order. -/
def initializeNotificationChannels (κ : Type) (s : ProfileState) : NotificationState κ :=
  if s.validTables then
    let notifying := s.tables.catalog.filter fun metadata => metadata.capabilities.has .notify
    { channels := fun index => { id := (notifying[index]?.map SignalMetadata.id).getD {} }
      channelCount := notifying.length }
  else {}

namespace NotificationState

variable {κ : Type}

def setChannel (n : NotificationState κ) (index : ℕ) (binding : NotificationChannelBinding κ) :
    NotificationState κ :=
  { n with channels := Function.update n.channels index binding }

/-- The same change of every channel. -/
def mapChannels (n : NotificationState κ)
    (f : NotificationChannelBinding κ → NotificationChannelBinding κ) : NotificationState κ :=
  { n with
    channels := fun index => if index < n.channelCount then f (n.channels index)
      else n.channels index }

/-- The first channel of a signal; the number of the channels where it has none. -/
def findChannelIndex (n : NotificationState κ) (id : SignalId) : ℕ :=
  ((List.range n.channelCount).find? fun index => (n.channels index).id == id).getD n.channelCount

def subscribe (s : ProfileState) (n : NotificationState κ) (id : SignalId) (callback : Option κ)
    (ownerAllowed : Bool) : NotificationState κ × Except SignalStatus SignalSubscription :=
  match s.tables.catalog.find id with
  | none => (n, .error .invalidSignal)
  | some metadata =>
    if !metadata.capabilities.has .notify then (n, .error .unsupportedCapability)
    else if !s.validTables then (n, .error .faulted)
    else if n.running || n.callbackActive then (n, .error .invalidState)
    else if callback.isNone then (n, .error .invalidArgument)
    else if !ownerAllowed then (n, .error .invalidState)
    else
      let channelIndex := n.findChannelIndex id
      if n.channelCount ≤ channelIndex then (n, .error .faulted)
      else
        let binding := n.channels channelIndex
        match (List.finRange kNotificationSubscribersPerChannel).find?
            fun slot => !(binding.registrations slot).active with
        | none => (n, .error .capacityExceeded)
        | some slot =>
          let registration := binding.registrations slot
          match binding.channel.subscribe runtimeChannelId (some slot) with
          | (channel, { status := .ok, value := some handle }) =>
            let generation := nextGeneration registration.generation
            (n.setChannel channelIndex ({ binding with channel }.setRegistration slot
              { callback, channelHandle := handle, generation, active := true }),
              .ok (encodeSubscription channelIndex slot generation))
          | (channel, result) =>
            (n.setChannel channelIndex ({ binding with channel }.setRegistration slot
              registration.clear), .error (mapNotificationStatus result.status))

def unsubscribe (s : ProfileState) (n : NotificationState κ) (subscription : SignalSubscription)
    (ownerAllowed : Bool) : NotificationState κ × SignalStatus :=
  if !s.validTables then (n, .faulted)
  else if n.running || n.callbackActive then (n, .invalidState)
  else if !ownerAllowed then (n, .invalidState)
  else
    match decodeSubscription subscription n.channelCount with
    | none => (n, .invalidSubscription)
    | some decoded =>
      let binding := n.channels decoded.channelIndex
      let registration := binding.registrations decoded.slot
      if !registration.active || registration.generation != decoded.generation then
        (n, .invalidSubscription)
      else
        match binding.channel.unsubscribe runtimeChannelId registration.channelHandle with
        | (channel, .ok) =>
          (n.setChannel decoded.channelIndex
            ({ binding with channel }.setRegistration decoded.slot registration.clear), .ok)
        | (channel, status) =>
          (n.setChannel decoded.channelIndex { binding with channel },
            mapNotificationStatus status)

/-- Starts every channel and publishes what the signals read, unless one fails to start: then
those before it are stopped again. -/
def start (n : NotificationState κ) (readings : SignalId → Except SignalStatus SignalReading) :
    NotificationState κ :=
  match (List.range n.channelCount).find? fun index =>
      (n.channels index).channel.start.2 != .ok with
  | some failed =>
    { n with
      channels := fun index =>
        let binding := n.channels index
        if index < failed then { binding with channel := binding.channel.start.1.stop.1 }
        else binding }
  | none =>
    let started := n.mapChannels fun binding => { binding with channel := binding.channel.start.1 }
    { started with running := true }.mapChannels (·.publishInitial readings)

/-- Stops every channel, and drops the registrations if all of them stopped. -/
def stop (n : NotificationState κ) : NotificationState κ :=
  let stopped := n.mapChannels fun binding => { binding with channel := binding.channel.stop.1 }
  if (List.range n.channelCount).any fun index => (n.channels index).channel.stop.2 != .ok then
    stopped
  else { stopped.mapChannels (·.detachAll) with running := false }

def setRunning (s : ProfileState) (n : NotificationState κ) (running : Bool)
    (readings : SignalId → Except SignalStatus SignalReading) : NotificationState κ :=
  if !s.validTables then n
  else if n.callbackActive then n
  else if running then if n.running then n else n.start readings
  else if !n.running then n
  else n.stop

def publish (s : ProfileState) (n : NotificationState κ) (result : ProviderProcessResult)
    (readings : SignalId → Except SignalStatus SignalReading) : NotificationState κ :=
  if !s.validTables || !n.running then n else n.mapChannels (·.publishResult result readings)

/-- One dispatch of a channel, up to the call of its trampoline. -/
def dispatchOne (n : NotificationState κ) (index : ℕ) :
    NotificationState κ × Option (Channel.Delivery SignalValue Slot) :=
  if n.channelCount ≤ index then (n, none)
  else
    let binding := n.channels index
    (n.setChannel index { binding with channel := binding.channel.dispatchOne.1 },
      binding.channel.dispatchOne.2.toOption)

/-- What the trampoline does before it calls the subscriber, and the call. -/
def notificationTrampoline (n : NotificationState κ) (index : ℕ) (slot : Slot)
    (notice : Notification SignalValue) : NotificationState κ × Option (κ × SignalNotification) :=
  let registration := (n.channels index).registrations slot
  match registration.active, registration.callback with
  | true, some callback =>
    ({ n with callbackActive := true },
      some (callback,
        { id := (n.channels index).id
          current := notice.current
          initial := notice.initial
          becameUnavailable := notice.becameUnavailable
          recovered := notice.recovered
          coalesced := notice.coalesced }))
  | _, _ => (n, none)

/-- The rest of a dispatch, once the trampoline returned. -/
def callbackReturned (n : NotificationState κ) (index : ℕ) : NotificationState κ :=
  if n.channelCount ≤ index then n
  else
    let binding := n.channels index
    n.setChannel index { binding with channel := binding.channel.callbackReturned }

end NotificationState

/-- The calls that reach the notifications. A pass over the pending notices is a row of
dispatches; a dispatch is four moments, between which other calls may come. -/
inductive NotificationCall (κ : Type)
  | subscribe (id : SignalId) (callback : Option κ) (ownerAllowed : Bool)
  | unsubscribe (subscription : SignalSubscription) (ownerAllowed : Bool)
  | setRunning (running : Bool) (readings : SignalId → Except SignalStatus SignalReading)
  | publish (result : ProviderProcessResult)
      (readings : SignalId → Except SignalStatus SignalReading)
  | dispatchOne (index : ℕ)
  | trampolineEntered (index : ℕ) (slot : Slot) (notice : Notification SignalValue)
  | trampolineLeft
  | callbackReturned (index : ℕ)

inductive NotificationAnswer (κ : Type)
  | subscription (result : Except SignalStatus SignalSubscription)
  | status (status : SignalStatus)
  | detached (delivery : Option (Channel.Delivery SignalValue Slot))
  | called (call : Option (κ × SignalNotification))
  | done

/-- One call. -/
def NotificationState.step {κ : Type} (s : ProfileState) (n : NotificationState κ) :
    NotificationCall κ → NotificationState κ × NotificationAnswer κ
  | .subscribe id callback ownerAllowed =>
    let result := n.subscribe s id callback ownerAllowed
    (result.1, .subscription result.2)
  | .unsubscribe subscription ownerAllowed =>
    let result := n.unsubscribe s subscription ownerAllowed
    (result.1, .status result.2)
  | .setRunning running readings => (n.setRunning s running readings, .done)
  | .publish result readings => (n.publish s result readings, .done)
  | .dispatchOne index => ((n.dispatchOne index).1, .detached (n.dispatchOne index).2)
  | .trampolineEntered index slot notice =>
    let result := n.notificationTrampoline index slot notice
    (result.1, .called result.2)
  | .trampolineLeft => ({ n with callbackActive := false }, .done)
  | .callbackReturned index => (n.callbackReturned index, .done)

end AccessoryController.ProfileRuntime
