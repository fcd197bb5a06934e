import AccessoryController.ProfileRuntime.ResultLists
import AccessoryController.ProfileRuntime.SubscriptionLaw

/-!
# A provider with its notifications

The provider decides what the signals read, and its notifications publish these readings. The
processor of frames calls the provider and publishes the result under one lock; subscribers and
dispatches reach the notifications at any moment between. The adapter stops the notifications only
after it has seen that no dispatch is in progress.

## Main definitions

* `RuntimeState κ`: a provider with its notifications, for callbacks of type `κ`
* `RuntimeState.step`: one call on either
* `RuntimeState.Sound`: what holds in every run

## Main results

* `sound_step`: every call keeps a sound state sound
* `sound_after`: every run ends in a sound state
-/

namespace AccessoryController.ProfileRuntime

open VehicleCore VehicleSignals AccessoryController.SignalNotification NotificationState

variable {κ : Type}

/-! ### Calls -/

structure RuntimeState (κ : Type) where
  provider : ProfileState
  notifications : NotificationState κ

/-- The calls on a provider and on its notifications, each with the time of the clock where it
reads one. A dispatch is four moments, between which other calls may come. -/
inductive RuntimeCall (κ : Type)
  | provider (call : ProviderCall)
  | publish (result : ProviderProcessResult) (nowUs : MonotonicTimestamp)
  | start (nowUs : MonotonicTimestamp)
  | stop
  | subscribe (id : SignalId) (callback : Option κ) (ownerAllowed : Bool)
  | unsubscribe (subscription : SignalSubscription) (ownerAllowed : Bool)
  | dispatchOne (index : ℕ)
  | trampolineEntered (index : ℕ) (slot : Slot) (notice : Notification SignalValue)
  | trampolineLeft
  | callbackReturned (index : ℕ)

inductive RuntimeAnswer (κ : Type)
  | result (result : ProviderProcessResult)
  | notified (answer : NotificationAnswer κ)

/-- No dispatch is in progress. -/
def NotificationState.quiescent (n : NotificationState κ) : Prop :=
  n.callbackActive = false ∧ ∀ index < n.channelCount,
    (n.channels index).channel.callbackActive = false ∧
      (n.channels index).channel.dispatching = false

instance (n : NotificationState κ) : Decidable n.quiescent := by
  unfold quiescent
  infer_instance

namespace RuntimeState

/-- A provider over a profile, with the channels of its signals. -/
def create (κ : Type) (tables : ProfileTables) (synchronizationWellFormed : Bool) :
    RuntimeState κ :=
  let provider := ProfileState.create tables synchronizationWellFormed
  ⟨provider, initializeNotificationChannels κ provider⟩

/-- What the provider reads of each signal at a time. -/
def readings (r : RuntimeState κ) (nowUs : MonotonicTimestamp) (id : SignalId) :
    Except SignalStatus SignalReading :=
  r.provider.read id nowUs

def notify (r : RuntimeState κ) (call : NotificationCall κ) : RuntimeState κ × RuntimeAnswer κ :=
  let result := r.notifications.step r.provider call
  ({ r with notifications := result.1 }, .notified result.2)

/-- One call. -/
def step (isValid : RawCanFrame → Bool) (r : RuntimeState κ) :
    RuntimeCall κ → RuntimeState κ × RuntimeAnswer κ
  | .provider call =>
    let result := r.provider.step isValid call
    ({ r with provider := result.1 }, .result result.2)
  | .publish result nowUs => r.notify (.publish result (r.readings nowUs))
  | .start nowUs => r.notify (.setRunning true (r.readings nowUs))
  | .stop =>
    if r.notifications.quiescent then r.notify (.setRunning false (r.readings 0))
    else (r, .notified .done)
  | .subscribe id callback ownerAllowed => r.notify (.subscribe id callback ownerAllowed)
  | .unsubscribe subscription ownerAllowed => r.notify (.unsubscribe subscription ownerAllowed)
  | .dispatchOne index => r.notify (.dispatchOne index)
  | .trampolineEntered index slot notice => r.notify (.trampolineEntered index slot notice)
  | .trampolineLeft => r.notify .trampolineLeft
  | .callbackReturned index => r.notify (.callbackReturned index)

end RuntimeState

/-! ### Channels -/

/-- What a channel keeps apart from its slots and the progress of a dispatch. -/
def face (c : Channel SignalValue Slot) : SignalReading × Bool × Bool :=
  (c.current, c.hasAvailablePeriod, c.running)

/-- A channel holds an available reading only of a signal that can be read, and while it runs it
has then seen an available period. -/
def ChannelSound (readable : Prop) (c : Channel SignalValue Slot) : Prop :=
  available c.current = true → readable ∧ (c.running = true → c.hasAvailablePeriod = true)

variable {readable : Prop} {c : Channel SignalValue Slot}

theorem ChannelSound.congr {c' : Channel SignalValue Slot} (sound : ChannelSound readable c)
    (same : face c' = face c) : ChannelSound readable c' := by
  obtain ⟨current, rest⟩ := Prod.mk.inj same
  obtain ⟨period, running⟩ := Prod.mk.inj rest
  unfold ChannelSound
  rw [current, period, running]
  exact sound

theorem face_unsubscribe (channelId : ℕ) (c : Channel SignalValue Slot)
    (handle : NotificationHandle) : face (c.unsubscribe channelId handle).1 = face c := by
  unfold Channel.unsubscribe
  split
  · rfl
  · split <;> rfl

theorem face_dispatchOne (c : Channel SignalValue Slot) : face c.dispatchOne.1 = face c := by
  unfold Channel.dispatchOne
  split
  · rfl
  · split
    · rfl
    · split <;> rfl

theorem running_publish (c : Channel SignalValue Slot) (reading : SignalReading) :
    (c.publish reading).1.running = c.running := by
  unfold Channel.publish
  split
  · rfl
  · split <;> rfl

theorem running_stop_of_quiet (idle : c.callbackActive = false) (free : c.dispatching = false)
    (running : c.running = true) : c.stop.2 = .ok := by
  unfold Channel.stop
  rw [idle, free, running]
  rfl

theorem ChannelSound.publish (sound : ChannelSound readable c) {reading : SignalReading}
    (read : available reading = true → readable) : ChannelSound readable (c.publish reading).1 := by
  unfold Channel.publish
  split
  · exact sound
  split
  · exact sound
  intro shown
  have shown : available reading = true := shown
  exact ⟨read shown, fun _ => by simp [shown]⟩

theorem ChannelSound.start (sound : ChannelSound readable c) : ChannelSound readable c.start.1 := by
  unfold Channel.start
  split
  · exact sound
  · exact fun shown => absurd shown Bool.false_ne_true

theorem ChannelSound.stop (sound : ChannelSound readable c) : ChannelSound readable c.stop.1 := by
  unfold Channel.stop
  split
  · exact sound
  split
  · exact sound
  exact fun shown => ⟨(sound shown).1, fun running => absurd running Bool.false_ne_true⟩

theorem running_start (rest : c.AtRest) : c.start.1.running = true := by
  unfold Channel.start
  rw [if_neg (by simp [rest.1, rest.2])]

section Bindings

variable {binding : NotificationChannelBinding κ} {readable : Prop}
  {readings : SignalId → Except SignalStatus SignalReading}

theorem face_detachAll (binding : NotificationChannelBinding κ) :
    face binding.detachAll.channel = face binding.channel := by
  refine List.foldlRecOn (motive := fun b : NotificationChannelBinding κ =>
    face b.channel = face binding.channel) _ _ rfl fun b same slot _ => ?_
  unfold NotificationChannelBinding.detach
  dsimp only
  split
  · exact same
  · exact (face_unsubscribe _ _ _).trans same

theorem sound_publishInitial (sound : ChannelSound readable binding.channel)
    (read : ∀ reading, readings binding.id = .ok reading → available reading = true → readable) :
    ChannelSound readable (binding.publishInitial readings).channel := by
  unfold NotificationChannelBinding.publishInitial
  split
  · next initial hread => exact sound.publish (read initial hread)
  · exact sound

/-- The stale reading that goes before a recovery is not available. -/
theorem sound_publishResult (sound : ChannelSound readable binding.channel)
    (result : ProviderProcessResult)
    (read : ∀ reading, readings binding.id = .ok reading → available reading = true → readable) :
    ChannelSound readable (binding.publishResult result readings).channel := by
  unfold NotificationChannelBinding.publishResult
  dsimp only
  split
  · exact sound
  split
  · exact sound
  next current hread =>
  refine ChannelSound.publish ?_ (read current hread)
  split
  · exact sound.publish fun shown => absurd shown (by simp [available])
  · exact sound

theorem running_publishInitial :
    (binding.publishInitial readings).channel.running = binding.channel.running := by
  unfold NotificationChannelBinding.publishInitial
  split
  · exact running_publish _ _
  · rfl

theorem running_publishResult (result : ProviderProcessResult) :
    (binding.publishResult result readings).channel.running = binding.channel.running := by
  unfold NotificationChannelBinding.publishResult
  dsimp only
  split
  · rfl
  split
  · rfl
  refine (running_publish _ _).trans ?_
  split
  · exact running_publish _ _
  · rfl

end Bindings

/-! ### What holds in every run -/

/-- The provider reads a signal at every time. -/
def ProfileState.Readable (s : ProfileState) (id : SignalId) : Prop :=
  ∀ nowUs, ∃ reading, s.read id nowUs = .ok reading

/-- Whether a signal can be read is up to the profile alone. -/
theorem readable_of_read {s s' : ProfileState} (profile : s'.profile = s.profile) {id : SignalId}
    {nowUs : MonotonicTimestamp} {reading : SignalReading} (read : s.read id nowUs = .ok reading) :
    s'.Readable id := by
  intro laterUs
  obtain ⟨tables, validTables⟩ := Prod.mk.inj profile
  unfold ProfileState.read at read ⊢
  rw [tables, validTables]
  split at read
  · cases read
  split at read
  · cases read
  next capable =>
  rw [if_neg capable]
  split at read
  · cases read
  next valid =>
  rw [if_neg valid]
  dsimp only at read ⊢
  split at read
  · cases read
  next within =>
  rw [if_neg within]
  split at read
  · cases read
  · exact ⟨_, rfl⟩

/-- The channels of running notifications run, and show what can be read. -/
structure NotificationsSound (s : ProfileState) (n : NotificationState κ) : Prop where
  consistent : Consistent s n
  running : n.running = true → ∀ index < n.channelCount, (n.channels index).channel.running = true
  channels : ∀ index, ChannelSound (s.Readable (n.channels index).id) (n.channels index).channel

namespace NotificationsSound

variable {s : ProfileState} {n n' : NotificationState κ}

/-- A call that keeps the channels apart from their slots. -/
theorem of_face (sound : NotificationsSound s n) (consistent : Consistent s n')
    (running : n'.running = n.running) (count : n'.channelCount = n.channelCount)
    (same : ∀ index, (n'.channels index).id = (n.channels index).id ∧
      face (n'.channels index).channel = face (n.channels index).channel) :
    NotificationsSound s n' := by
  refine ⟨consistent, fun run index within => ?_, fun index => ?_⟩
  · have still : (n'.channels index).channel.running = (n.channels index).channel.running :=
      congrArg (fun shown => shown.2.2) (same index).2
    rw [still]
    exact sound.running (running.symm.trans run) index (count ▸ within)
  · rw [(same index).1]
    exact (sound.channels index).congr (same index).2

theorem of_profile {s' : ProfileState} (sound : NotificationsSound s n)
    (profile : s'.profile = s.profile) :
    NotificationsSound s' n := by
  obtain ⟨tables, validTables⟩ := Prod.mk.inj profile
  have same : initializeNotificationChannels κ s' = initializeNotificationChannels κ s := by
    unfold initializeNotificationChannels
    rw [tables, validTables]
  refine ⟨⟨?_, sound.consistent.few, ?_, sound.consistent.inStep, sound.consistent.rest⟩,
    sound.running, fun index shown => ?_⟩
  · rw [same]
    exact sound.consistent.count
  · rw [same]
    exact sound.consistent.ids
  · obtain ⟨readable, period⟩ := sound.channels index shown
    obtain ⟨reading, hread⟩ := readable 0
    exact ⟨readable_of_read profile hread, period⟩

/-- A change of every channel of running notifications. -/
theorem mapChannels (sound : NotificationsSound s n)
    {f : NotificationChannelBinding κ → NotificationChannelBinding κ}
    (consistent : Consistent s (n.mapChannels f)) (id : ∀ binding, (f binding).id = binding.id)
    (running : ∀ binding, (f binding).channel.running = binding.channel.running)
    (channel : ∀ binding, ChannelSound (s.Readable binding.id) binding.channel →
      ChannelSound (s.Readable binding.id) (f binding).channel) :
    NotificationsSound s (n.mapChannels f) := by
  refine ⟨consistent, fun run index within => ?_, fun index => ?_⟩
  · rw [channels_mapChannels]
    split
    · rw [running]
      exact sound.running run index within
    · exact sound.running run index within
  · rw [channels_mapChannels]
    split
    · rw [id]
      exact channel _ (sound.channels index)
    · exact sound.channels index

end NotificationsSound

section Calls

variable {s : ProfileState} {n : NotificationState κ}

theorem notificationsSound_publish (sound : NotificationsSound s n) (result : ProviderProcessResult)
    (nowUs : MonotonicTimestamp) :
    NotificationsSound s (n.publish s result fun id => s.read id nowUs) := by
  have consistent := consistent_step sound.consistent
    (.publish result fun id => s.read id nowUs)
  change Consistent s (n.publish s result fun id => s.read id nowUs) at consistent
  unfold publish at consistent ⊢
  split at consistent
  · rw [if_pos (by assumption)]
    exact sound
  · rw [if_neg (by assumption)]
    exact sound.mapChannels consistent (fun binding => (publishResult_frame result _ binding).1)
      (fun binding => running_publishResult result)
      fun binding channel => sound_publishResult channel result
        fun _ read _ => readable_of_read rfl read

theorem start_running (consistent : Consistent s n) (stopped : n.running = false)
    (readings : SignalId → Except SignalStatus SignalReading) :
    (n.start readings).running = true ∧ (n.start readings).channelCount = n.channelCount ∧
      ∀ index, (n.start readings).channels index =
        if index < n.channelCount then NotificationChannelBinding.publishInitial readings
          { n.channels index with channel := (n.channels index).channel.start.1 }
        else n.channels index := by
  have allStart : (List.range n.channelCount).find? (fun index =>
      (n.channels index).channel.start.2 != .ok) = none := by
    rw [List.find?_eq_none]
    intro index within
    rw [start_of_atRest (consistent.rest stopped index (List.mem_range.mp within))]
    decide
  unfold start
  rw [allStart]
  refine ⟨rfl, rfl, fun index => ?_⟩
  rw [channels_mapChannels]
  rw [channels_mapChannels]
  by_cases within : index < n.channelCount
  · rw [if_pos within, if_pos within]
    exact if_pos within
  · rw [if_neg within, if_neg within]
    exact if_neg within

theorem id_publishInitial (readings : SignalId → Except SignalStatus SignalReading)
    (binding : NotificationChannelBinding κ) :
    (binding.publishInitial readings).id = binding.id := by
  unfold NotificationChannelBinding.publishInitial
  split <;> rfl

/-- A start publishes what the signals read. -/
theorem notificationsSound_start (sound : NotificationsSound s n) (stopped : n.running = false)
    (nowUs : MonotonicTimestamp) : NotificationsSound s (n.start fun id => s.read id nowUs) := by
  have rest := sound.consistent.rest stopped
  have consistent : Consistent s (n.start fun id => s.read id nowUs) := by
    rcases lifecycle_start sound.consistent stopped fun id => s.read id nowUs with h | h
    · exact h
    · exact h
  obtain ⟨-, count, channels⟩ := start_running sound.consistent stopped fun id => s.read id nowUs
  refine ⟨consistent, fun _ index within => ?_, fun index => ?_⟩ <;> rw [channels]
  · rw [count] at within
    rw [if_pos within, running_publishInitial]
    exact running_start (rest index within)
  · split
    · rw [id_publishInitial]
      exact sound_publishInitial (sound.channels index).start
        fun _ read _ => readable_of_read rfl read
    · exact sound.channels index

/-- A stop that finds no dispatch in progress stops every channel. -/
theorem notificationsSound_stop (sound : NotificationsSound s n) (running : n.running = true)
    (quiet : n.quiescent) :
    NotificationsSound s n.stop := by
  have consistent : Consistent s n.stop := by
    rcases lifecycle_stop sound.consistent running with h | h
    · exact h
    · exact h
  have allStop : ((List.range n.channelCount).any fun index =>
      (n.channels index).channel.stop.2 != .ok) = false := by
    rw [List.any_eq_false]
    intro index within
    have within := List.mem_range.mp within
    rw [running_stop_of_quiet (quiet.2 index within).1 (quiet.2 index within).2
      (sound.running running index within)]
    decide
  unfold stop at consistent ⊢
  rw [allStop] at consistent ⊢
  refine ⟨consistent, fun run => absurd run Bool.false_ne_true, fun index => ?_⟩
  have stopped : ChannelSound (s.Readable (n.channels index).id)
      (n.channels index).channel.stop.1 := (sound.channels index).stop
  by_cases within : index < n.channelCount
  · refine ChannelSound.congr (c := (n.channels index).channel.stop.1) ?_ ?_
    · rw [consistent.ids, ← sound.consistent.ids]
      exact stopped
    · rw [if_neg Bool.false_ne_true]
      rw [channels_mapChannels, channels_mapChannels, if_pos within]
      rw [show (n.mapChannels fun binding => { binding with channel := binding.channel.stop.1 }
        ).channelCount = n.channelCount from rfl, if_pos within]
      exact face_detachAll _
  · rw [if_neg Bool.false_ne_true]
    rw [channels_mapChannels, channels_mapChannels, if_neg within]
    rw [show (n.mapChannels fun binding => { binding with channel := binding.channel.stop.1 }
        ).channelCount = n.channelCount from rfl, if_neg within]
    exact sound.channels index

/-- A call of a subscriber or of a dispatch. -/
def NotificationCall.client : NotificationCall κ → Bool
  | .setRunning _ _ | .publish _ _ => false
  | _ => true

/-- Such a call keeps the channels apart from their slots. -/
theorem client_frame (consistent : Consistent s n) {call : NotificationCall κ}
    (client : call.client = true) :
    let n' := (n.step s call).1
    n'.running = n.running ∧ n'.channelCount = n.channelCount ∧
      ∀ index, (n'.channels index).id = (n.channels index).id ∧
        face (n'.channels index).channel = face (n.channels index).channel := by
  -- one channel may change, and keeps its face
  have one {index : ℕ} {binding : NotificationChannelBinding κ}
      (id : binding.id = (n.channels index).id)
      (same : face binding.channel = face (n.channels index).channel) (other : ℕ) :
      ((n.setChannel index binding).channels other).id = (n.channels other).id ∧
        face ((n.setChannel index binding).channels other).channel =
          face (n.channels other).channel := by
    rw [channels_setChannel]
    split
    · next h => exact ⟨h ▸ id, h ▸ same⟩
    · exact ⟨rfl, rfl⟩
  cases call with
  | subscribe id callback ownerAllowed =>
    intro n'
    rcases subscribe_cases consistent id callback ownerAllowed with
      ⟨status, heq⟩ | ⟨index, slot, -, -, -, -, -, heq⟩
    · have same : n' = n := congrArg Prod.fst heq
      exact same ▸ ⟨rfl, rfl, fun _ => ⟨rfl, rfl⟩⟩
    · have same : n' = n.setChannel index _ := congrArg Prod.fst heq
      rw [same]
      exact ⟨rfl, rfl, one rfl rfl⟩
  | unsubscribe subscription ownerAllowed =>
    intro n'
    rcases unsubscribe_cases consistent subscription ownerAllowed with
      ⟨status, -, heq⟩ | ⟨decoded, -, -, -, -, -, -, heq⟩
    · have same : n' = n := congrArg Prod.fst heq
      exact same ▸ ⟨rfl, rfl, fun _ => ⟨rfl, rfl⟩⟩
    · have same : n' = n.setChannel decoded.channelIndex _ := congrArg Prod.fst heq
      rw [same]
      exact ⟨rfl, rfl, one rfl rfl⟩
  | setRunning running readings => cases client
  | publish result readings => cases client
  | dispatchOne index =>
    dsimp only [step]
    unfold dispatchOne
    split
    · exact ⟨rfl, rfl, fun _ => ⟨rfl, rfl⟩⟩
    · exact ⟨rfl, rfl, one rfl (face_dispatchOne _)⟩
  | trampolineEntered index slot notice =>
    dsimp only [step, notificationTrampoline]
    split <;> exact ⟨rfl, rfl, fun _ => ⟨rfl, rfl⟩⟩
  | trampolineLeft => exact ⟨rfl, rfl, fun _ => ⟨rfl, rfl⟩⟩
  | callbackReturned index =>
    dsimp only [step]
    unfold callbackReturned
    split
    · exact ⟨rfl, rfl, fun _ => ⟨rfl, rfl⟩⟩
    · exact ⟨rfl, rfl, one rfl rfl⟩

theorem notificationsSound_client (sound : NotificationsSound s n) {call : NotificationCall κ}
    (client : call.client = true) :
    NotificationsSound s (n.step s call).1 := by
  obtain ⟨running, count, same⟩ := client_frame sound.consistent client
  exact sound.of_face (consistent_step sound.consistent call) running count same

end Calls

namespace RuntimeState

variable {isValid : RawCanFrame → Bool}

/-- The provider and its notifications agree. -/
def Sound (r : RuntimeState κ) : Prop := NotificationsSound r.provider r.notifications

theorem profile_step (r : RuntimeState κ) (call : RuntimeCall κ) :
    (r.step isValid call).1.provider.profile = r.provider.profile := by
  cases call with
  | provider call => exact ProfileState.profile_step isValid r.provider call
  | stop =>
    unfold step
    dsimp only
    split <;> rfl
  | _ => rfl

theorem profile_after (r : RuntimeState κ) (calls : List (RuntimeCall κ)) :
    (Machine.after (step isValid) r calls).provider.profile = r.provider.profile :=
  List.foldlRecOn (motive := fun r' : RuntimeState κ => r'.provider.profile = r.provider.profile)
    _ _ rfl fun r' same call _ => (profile_step r' call).trans same

/-- **A call keeps the notifications in agreement with the provider.** -/
theorem sound_step {r : RuntimeState κ} (sound : r.Sound) (call : RuntimeCall κ) :
    (r.step isValid call).1.Sound := by
  cases call with
  | provider call =>
    exact NotificationsSound.of_profile sound (ProfileState.profile_step isValid r.provider call)
  | publish result nowUs => exact notificationsSound_publish sound result nowUs
  | start nowUs =>
    show NotificationsSound r.provider
      (r.notifications.setRunning r.provider true (r.readings nowUs))
    unfold setRunning
    split
    · exact sound
    split
    · exact sound
    rw [if_pos rfl]
    split
    · exact sound
    next stopped => exact notificationsSound_start sound (by simpa using stopped) nowUs
  | stop =>
    unfold step
    dsimp only
    split
    · next quiet =>
      show NotificationsSound r.provider
        (r.notifications.setRunning r.provider false (r.readings 0))
      unfold setRunning
      split
      · exact sound
      split
      · exact sound
      rw [if_neg Bool.false_ne_true]
      split
      · exact sound
      next running => exact notificationsSound_stop sound (by simpa using running) quiet
    · exact sound
  | _ => exact notificationsSound_client sound rfl

/-- The notifications of a new provider are stopped, with nothing to show. -/
theorem initial_channels (κ : Type) (s : ProfileState) :
    (initializeNotificationChannels κ s).running = false ∧
      ∀ index, ((initializeNotificationChannels κ s).channels index).channel = {} := by
  unfold initializeNotificationChannels
  split
  · exact ⟨rfl, fun _ => rfl⟩
  · exact ⟨rfl, fun _ => rfl⟩

theorem sound_create (κ : Type) (tables : ProfileTables) (synchronizationWellFormed : Bool) :
    (create κ tables synchronizationWellFormed).Sound := by
  have fresh := initial_channels κ (ProfileState.create tables synchronizationWellFormed)
  refine ⟨consistent_initial tables synchronizationWellFormed, fun run => ?_, fun index shown => ?_⟩
  · exact absurd (fresh.1.symm.trans run) Bool.false_ne_true
  · rw [show (create κ tables synchronizationWellFormed).notifications =
      initializeNotificationChannels κ _ from rfl, fresh.2 index] at shown
    exact absurd shown Bool.false_ne_true

theorem sound_after {r : RuntimeState κ} (sound : r.Sound) (calls : List (RuntimeCall κ)) :
    (Machine.after (step isValid) r calls).Sound :=
  List.foldlRecOn (motive := fun r : RuntimeState κ => r.Sound) _ _ sound
    fun _ sound call _ => sound_step sound call

end RuntimeState

end AccessoryController.ProfileRuntime
