import AccessoryController.Library.Machine
import AccessoryController.VehicleCore.Contracts

/-!
# The latest-state notification channel

A channel keeps the current reading and, for each of its two subscriber slots, at most one
pending notice. Publication merges into the pending notices; dispatch detaches one notice under
the lock and delivers it with the lock released, so a callback may publish while it runs. The
operations below are the critical sections of the source, one definition each; `step` is the
channel as a machine over the calls that reach it, in any order.

## Main definitions

* `Channel T κ`: the state of a channel of readings of type `T` and callbacks `κ`
* `Channel.publish`, `Channel.dispatchOne`, `Channel.callbackReturned`: publication and the two
  critical sections of a dispatch
* `Channel.step`: one call on the channel
-/

namespace AccessoryController.SignalNotification

open VehicleCore

/-- The fixed subscriber slots of a channel. -/
def kNotificationSubscribersPerChannel : ℕ := 2

abbrev Slot := Fin kNotificationSubscribersPerChannel

/-- One latest-state notice; the flags are sticky across coalescing. -/
structure Notification (T : Type) where
  current : Reading T := {}
  initial : Bool := false
  becameUnavailable : Bool := false
  recovered : Bool := false
  coalesced : Bool := false
  deriving DecidableEq, Repr

/-- A handle names its channel, slot and generation; a default handle names none. -/
structure NotificationHandle where
  channel : ℕ := 0xffff
  slot : ℕ := 0xff
  generation : ℕ := 0
  deriving DecidableEq, Repr

inductive NotificationStatus
  | ok | alreadyRunning | notRunning | invalidState | invalidCallback | invalidSubscription
  | capacityExceeded | noPending
  deriving DecidableEq, Repr

/-- The result of a registration: a handle is present exactly on success. -/
structure NotificationSubscriptionResult where
  status : NotificationStatus := .invalidState
  value : Option NotificationHandle := none
  deriving DecidableEq, Repr

/-- One subscriber slot. A callback stands for the function pointer with its context pointer;
`none` is the null callback. -/
structure Subscriber (T κ : Type) where
  callback : Option κ := none
  generation : ℕ := 0
  registrationOrder : ℕ := 0
  active : Bool := false
  pending : Bool := false
  pendingInitialSeed : Bool := false
  pendingNotice : Notification T := {}

structure Channel (T κ : Type) where
  subscribers : Slot → Subscriber T κ := fun _ => {}
  current : Reading T := {}
  nextRegistrationOrder : ℕ := 1
  dispatchCursorOrder : ℕ := 0
  hasAvailablePeriod : Bool := false
  running : Bool := false
  dispatching : Bool := false
  callbackActive : Bool := false

/-- A reading is available when it has a value and is fresh or of unverified freshness. -/
def available {T : Type} (reading : Reading T) : Bool :=
  reading.value.isSome &&
    (reading.availability == .fresh || reading.availability == .freshnessUnverified)

/-- Equality of readings through the value type's own equality, which need not be lawful. -/
def sameReading {T : Type} [BEq T] (left right : Reading T) : Bool :=
  left.value == right.value && left.availability == right.availability &&
    left.validation == right.validation

/-- The successor of a wrapping counter of `width` bits that skips zero. -/
def nextCounter (width n : ℕ) : ℕ :=
  if (n + 1) % 2 ^ width = 0 then 1 else (n + 1) % 2 ^ width

/-- Merges an update into a pending notice. The first state seen before an initial notice is
delivered updates that seed, and is not reported as coalesced. -/
def Notification.coalesce {T : Type} (notice : Notification T) (initialSeed : Bool)
    (update : Notification T) : Notification T :=
  { notice with
    coalesced := if !initialSeed then true else notice.coalesced
    current := update.current
    becameUnavailable := notice.becameUnavailable || update.becameUnavailable
    recovered := notice.recovered || update.recovered }

namespace Subscriber

variable {T κ : Type}

/-- Merges an update into the slot's pending notice, or makes it the pending notice. -/
def mergePending (subscriber : Subscriber T κ) (update : Notification T) : Subscriber T κ :=
  if !subscriber.pending then
    { subscriber with pendingNotice := update, pending := true, pendingInitialSeed := false }
  else
    { subscriber with
      pendingNotice := subscriber.pendingNotice.coalesce subscriber.pendingInitialSeed update
      pendingInitialSeed := false }

/-- What a start leaves in a slot: the initial notice, pending where the slot is active. -/
def seed (subscriber : Subscriber T κ) : Subscriber T κ :=
  { subscriber with
    pendingNotice := { current := {}, initial := true }
    pendingInitialSeed := true
    pending := subscriber.active }

/-- What a stop leaves in a slot: the registration without its pending notice. -/
def discard (subscriber : Subscriber T κ) : Subscriber T κ :=
  { subscriber with pending := false, pendingInitialSeed := false, pendingNotice := {} }

/-- What a delivery leaves in a slot. -/
def detach (subscriber : Subscriber T κ) : Subscriber T κ :=
  { subscriber with pending := false, pendingInitialSeed := false }

end Subscriber

namespace Channel

variable {T κ : Type}

/-- A channel without a pending callback may be reconfigured only while it is stopped. -/
def subscribe (channelId : ℕ) (c : Channel T κ) (callback : Option κ) :
    Channel T κ × NotificationSubscriptionResult :=
  if c.callbackActive || c.running then (c, { status := .invalidState })
  else if callback.isNone then (c, { status := .invalidCallback })
  else
    match (List.finRange kNotificationSubscribersPerChannel).find?
        fun index => !(c.subscribers index).active with
    | none => (c, { status := .capacityExceeded })
    | some index =>
      let generation := nextCounter 16 (c.subscribers index).generation
      let subscriber : Subscriber T κ :=
        { callback, generation, registrationOrder := c.nextRegistrationOrder, active := true }
      ({ c with
          subscribers := Function.update c.subscribers index subscriber
          nextRegistrationOrder := nextCounter 64 c.nextRegistrationOrder },
        { status := .ok, value := some ⟨channelId, index, generation⟩ })

/-- The live slot a handle names, if it names one. -/
def findSubscriber (channelId : ℕ) (c : Channel T κ) (handle : NotificationHandle) :
    Option Slot :=
  if hs : handle.channel = channelId ∧ handle.slot < kNotificationSubscribersPerChannel then
    let index : Slot := ⟨handle.slot, hs.2⟩
    if (c.subscribers index).active && (c.subscribers index).generation == handle.generation
    then some index else none
  else none

def unsubscribe (channelId : ℕ) (c : Channel T κ) (handle : NotificationHandle) :
    Channel T κ × NotificationStatus :=
  if c.callbackActive || c.running then (c, .invalidState)
  else
    match c.findSubscriber channelId handle with
    | none => (c, .invalidSubscription)
    | some index =>
      ({ c with
          subscribers := Function.update c.subscribers index
            { generation := (c.subscribers index).generation } }, .ok)

/-- A start forgets the run before it and seeds every active slot with an initial notice. -/
def start (c : Channel T κ) : Channel T κ × NotificationStatus :=
  if c.callbackActive || c.running then (c, .alreadyRunning)
  else
    ({ c with
        running := true
        dispatching := false
        dispatchCursorOrder := 0
        current := {}
        hasAvailablePeriod := false
        subscribers := fun index => (c.subscribers index).seed }, .ok)

/-- A stop is refused while a callback is in progress, and discards the pending notices. -/
def stop (c : Channel T κ) : Channel T κ × NotificationStatus :=
  if c.callbackActive || c.dispatching then (c, .invalidState)
  else if !c.running then (c, .notRunning)
  else
    ({ c with
        running := false
        hasAvailablePeriod := false
        subscribers := fun index => (c.subscribers index).discard }, .ok)

/-- Publishes a reading that differs from the current one to every active slot. -/
def publish [BEq T] (c : Channel T κ) (reading : Reading T) : Channel T κ × NotificationStatus :=
  if !c.running then (c, .notRunning)
  else if sameReading c.current reading then (c, .ok)
  else
    let oldAvailable := available c.current
    let newAvailable := available reading
    let update : Notification T :=
      { current := reading
        becameUnavailable := oldAvailable && !newAvailable
        recovered := !oldAvailable && newAvailable && c.hasAvailablePeriod }
    ({ c with
        current := reading
        hasAvailablePeriod := newAvailable || c.hasAvailablePeriod
        subscribers := fun index =>
          if (c.subscribers index).active then (c.subscribers index).mergePending update
          else c.subscribers index }, .ok)

/-- The first slot of least registration order among those that satisfy `eligible`. -/
def oldestWhere (c : Channel T κ) (eligible : Slot → Bool) : Option Slot :=
  (List.finRange kNotificationSubscribersPerChannel).foldl (fun selected index =>
    if !eligible index then selected
    else
      match selected with
      | none => some index
      | some best =>
        if (c.subscribers index).registrationOrder < (c.subscribers best).registrationOrder
        then some index else selected) none

/-- An active slot that holds a notice. -/
def isPending (c : Channel T κ) (index : Slot) : Bool :=
  (c.subscribers index).active && (c.subscribers index).pending

/-- The oldest pending slot registered after the cursor, else the oldest pending slot. -/
def nextPendingSubscriber (c : Channel T κ) : Option Slot :=
  match c.oldestWhere fun index => c.isPending index &&
      !decide ((c.subscribers index).registrationOrder ≤ c.dispatchCursorOrder) with
  | some index => some index
  | none => c.oldestWhere c.isPending

/-- A notice handed to a slot's callback. -/
structure Delivery (T κ : Type) where
  slot : Slot
  callback : Option κ
  notice : Notification T

/-- The first critical section of a dispatch: it detaches one pending notice, which is then
delivered with the lock released. -/
def dispatchOne (c : Channel T κ) : Channel T κ × Except NotificationStatus (Delivery T κ) :=
  if !c.running then (c, .error .notRunning)
  else if c.callbackActive || c.dispatching then (c, .error .invalidState)
  else
    match c.nextPendingSubscriber with
    | none => (c, .error .noPending)
    | some index =>
      ({ c with
          dispatchCursorOrder := (c.subscribers index).registrationOrder
          subscribers := Function.update c.subscribers index (c.subscribers index).detach
          dispatching := true
          callbackActive := true },
        .ok ⟨index, (c.subscribers index).callback, (c.subscribers index).pendingNotice⟩)

/-- The second critical section of a dispatch, after the callback returned. -/
def callbackReturned (c : Channel T κ) : Channel T κ :=
  { c with callbackActive := false, dispatching := false }

end Channel

/-- The calls that reach a channel. Every call is one critical section; a dispatch is two, and
any other call, from the callback itself or from another context, may come between them. -/
inductive Call (T κ : Type)
  | subscribe (callback : Option κ)
  | unsubscribe (handle : NotificationHandle)
  | start
  | stop
  | publish (reading : Reading T)
  | dispatchOne
  | callbackReturned

inductive Answer (T κ : Type)
  | subscription (result : NotificationSubscriptionResult)
  | status (status : NotificationStatus)
  | delivered (delivery : Channel.Delivery T κ)

/-- One call on a channel. -/
def Channel.step {T κ : Type} [BEq T] (channelId : ℕ) (c : Channel T κ) :
    Call T κ → Channel T κ × Answer T κ
  | .subscribe callback => (c.subscribe channelId callback).map id .subscription
  | .unsubscribe handle => (c.unsubscribe channelId handle).map id .status
  | .start => c.start.map id .status
  | .stop => c.stop.map id .status
  | .publish reading => (c.publish reading).map id .status
  | .dispatchOne => c.dispatchOne.map id fun
      | .error status => .status status
      | .ok delivery => .delivered delivery
  | .callbackReturned => (c.callbackReturned, .status .ok)

end AccessoryController.SignalNotification
