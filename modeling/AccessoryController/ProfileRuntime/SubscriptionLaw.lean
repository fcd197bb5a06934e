import AccessoryController.Library.BitField
import AccessoryController.ProfileRuntime.Notifications
import AccessoryController.SignalNotification.Handles

/-!
# Subscriptions of the profile runtime

The registrations of the provider go in step with the slots of its channels, so that a token is
honoured as the handle of its channel is: it names its own registration until that is removed, by
an unsubscription or by a stop of the provider, and nothing afterwards, for as long as its place
was taken fewer than 65535 times since.

## Main definitions

* `InStep binding slot`: a registration and the slot of its channel
* `Consistent s n`: what holds of the notifications of a provider in every run
* `registrationCell index slot n`: a registration as a place with generations
* `revoked s token moves`, `retaken s token moves`: whether a token was removed in a run, and how
  often its place was taken
* `TokenHonoured`: what a token does in a state

## Main results

* `decodeSubscription_eq_some`: the tokens that decode, by their number
* `decode_encode`: a token decodes to what it was encoded from
* `encode_of_decode`: nothing else decodes to it
* `consistent_step`, `registration_step`: one call
* `token_honoured_after`: a token after any calls
* `subscription_handles`: the handles of channels and the tokens of providers
-/

namespace AccessoryController.ProfileRuntime

open VehicleCore VehicleSignals AccessoryController.SignalNotification NotificationState Machine
open NotificationChannelBinding (detach detachAll publishInitial setRegistration)

/-! ### Subscription tokens

A token is a number written with the digits of a channel, a slot and a generation. Decoding takes
exactly the tokens of the registrations that there can be, and gives the registration back. -/

theorem kUsedBits_eq : kUsedBits = BitField.lowMask 64 32 := by decide

/-- A token without unused bits is a number of 32 bits. -/
theorem and_not_kUsedBits {bits : BitVec 64} : bits &&& ~~~kUsedBits = 0 ↔ bits.toNat < 2 ^ 32 := by
  rw [kUsedBits_eq]
  exact BitField.and_not_lowMask

variable {channel : Channel SignalValue Slot}
  {readings : SignalId → Except SignalStatus SignalReading} (bits : BitVec 64)

theorem toNat_channel : (bits &&& kChannelMask).toNat = bits.toNat % 2 ^ 8 := by
  rw [BitVec.toNat_and, ← Nat.and_two_pow_sub_one_eq_mod]
  rfl

theorem toNat_slot : ((bits >>> kSlotShift) &&& kSlotMask).toNat = bits.toNat / 2 ^ 8 % 2 ^ 8 := by
  rw [BitVec.toNat_and, BitVec.toNat_ushiftRight, Nat.shiftRight_eq_div_pow,
    ← Nat.and_two_pow_sub_one_eq_mod]
  rfl

theorem toNat_generation :
    ((bits >>> kGenerationShift) &&& kGenerationMask).toNat = bits.toNat / 2 ^ 16 % 2 ^ 16 := by
  rw [BitVec.toNat_and, BitVec.toNat_ushiftRight, Nat.shiftRight_eq_div_pow,
    ← Nat.and_two_pow_sub_one_eq_mod]
  rfl

variable {subscription : SignalSubscription} {decoded : DecodedSubscription}
  {channelCount generation : ℕ} {slot : Slot} {index : ℕ} {s : ProfileState}
  {c : Channel SignalValue Slot} {token : SignalSubscription}

/-- **The tokens that decode**, by their number. -/
theorem decodeSubscription_eq_some :
    decodeSubscription subscription channelCount = some decoded ↔
      subscription.providerBits.toNat =
        decoded.channelIndex + 1 + 2 ^ 8 * decoded.slot + 2 ^ 16 * decoded.generation ∧
      decoded.channelIndex + 1 < 2 ^ 8 ∧ decoded.channelIndex < channelCount ∧
      0 < decoded.generation ∧ decoded.generation < 2 ^ 16 := by
  obtain ⟨bits⟩ := subscription
  obtain ⟨index, slot, generation⟩ := decoded
  have hslot : (slot : ℕ) < 2 := slot.isLt
  have zero : bits = 0 ↔ bits.toNat = 0 := by
    rw [← BitVec.toNat_inj]
    rfl
  simp only [decodeSubscription, toNat_channel, toNat_slot, toNat_generation, ne_eq,
    and_not_kUsedBits, zero]
  constructor
  · intro decodes
    split at decodes
    · cases decodes
    rename_i used
    split at decodes
    · rename_i within
      injection Option.some.inj decodes with hindex hslot' hgeneration
      have hslot' := congrArg Fin.val hslot'
      dsimp only at hslot'
      omega
    · cases decodes
  · rintro ⟨number, small, inside, positive, narrow⟩
    have channel : bits.toNat % 2 ^ 8 = index + 1 := by omega
    have place : bits.toNat / 2 ^ 8 % 2 ^ 8 = slot := by omega
    have stamp : bits.toNat / 2 ^ 16 % 2 ^ 16 = generation := by omega
    have within : ¬bits.toNat % 2 ^ 8 = 0 ∧ bits.toNat % 2 ^ 8 ≤ channelCount ∧
        bits.toNat / 2 ^ 8 % 2 ^ 8 < kNotificationSubscribersPerChannel ∧
        ¬bits.toNat / 2 ^ 16 % 2 ^ 16 = 0 :=
      ⟨by omega, by omega, place ▸ slot.isLt, by omega⟩
    rw [if_neg (by omega), dif_pos within]
    simp only [Option.some.injEq, DecodedSubscription.mk.injEq, Fin.ext_iff]
    omega

/-- The number of a token. -/
theorem toNat_encodeSubscription {channelIndex slot : ℕ} (small : channelIndex + 1 < 2 ^ 8)
    (place : slot < 2 ^ 8) (narrow : generation < 2 ^ 16) :
    (encodeSubscription channelIndex slot generation).providerBits.toNat =
      channelIndex + 1 + 2 ^ 8 * slot + 2 ^ 16 * generation := by
  have low : channelIndex + 1 ||| slot <<< 8 = slot <<< 8 + (channelIndex + 1) := by
    rw [Nat.or_comm, Nat.shiftLeft_add_eq_or_of_lt small]
  have high : slot <<< 8 + (channelIndex + 1) ||| generation <<< 16 =
      generation <<< 16 + (slot <<< 8 + (channelIndex + 1)) := by
    rw [Nat.or_comm]
    exact (Nat.shiftLeft_add_eq_or_of_lt (by rw [Nat.shiftLeft_eq]; omega) _).symm
  simp only [encodeSubscription, kSlotShift, kGenerationShift, BitVec.toNat_or, BitVec.toNat_ofNat,
    BitVec.toNat_shiftLeft]
  rw [Nat.mod_eq_of_lt (a := channelIndex + 1) (by omega), Nat.mod_eq_of_lt (a := slot) (by omega),
    Nat.mod_eq_of_lt (a := generation) (by omega),
    Nat.mod_eq_of_lt (a := slot <<< 8) (by rw [Nat.shiftLeft_eq]; omega),
    Nat.mod_eq_of_lt (a := generation <<< 16) (by rw [Nat.shiftLeft_eq]; omega), low, high,
    Nat.shiftLeft_eq, Nat.shiftLeft_eq]
  omega

/-- **A token decodes to what it was encoded from.** -/
theorem decode_encode {channelIndex : ℕ} (inside : channelIndex < channelCount)
    (few : channelCount < 2 ^ 8) (slot : Slot) (positive : 0 < generation)
    (narrow : generation < 2 ^ 16) :
    decodeSubscription (encodeSubscription channelIndex slot generation) channelCount =
      some ⟨channelIndex, slot, generation⟩ := by
  have hslot : (slot : ℕ) < 2 := slot.isLt
  have small : channelIndex + 1 < 2 ^ 8 := by omega
  exact decodeSubscription_eq_some.mpr
    ⟨toNat_encodeSubscription small (by omega) narrow, small, inside, positive, narrow⟩

/-- A token is the encoding of what it decodes to. -/
theorem encode_of_decode (decodes : decodeSubscription subscription channelCount = some decoded) :
    subscription = encodeSubscription decoded.channelIndex decoded.slot decoded.generation := by
  have hslot : (decoded.slot : ℕ) < 2 := decoded.slot.isLt
  obtain ⟨number, small, -, -, narrow⟩ := decodeSubscription_eq_some.mp decodes
  have same := number.trans
    (@toNat_encodeSubscription _ _ decoded.slot small (by omega) narrow).symm
  obtain ⟨bits⟩ := subscription
  exact congrArg SignalSubscription.mk (BitVec.toNat_inj.mp same)

open Generations

variable {κ : Type}

/-! ### Registrations and slots -/

/-- A registration goes in step with the slot of its channel. -/
structure InStep (binding : NotificationChannelBinding κ) (slot : Slot) : Prop where
  generation : (slotCell slot binding.channel).generation = (binding.registrations slot).generation
  holder : (slotCell slot binding.channel).holder.map Prod.fst =
    if (binding.registrations slot).active then some (some slot) else none
  handle : (binding.registrations slot).active = true →
    (binding.registrations slot).channelHandle =
      ⟨runtimeChannelId, slot, (binding.registrations slot).generation⟩

namespace InStep

variable {binding : NotificationChannelBinding κ} {slot : Slot}

theorem active (step : InStep binding slot) :
    (binding.channel.subscribers slot).active = (binding.registrations slot).active := by
  have holder := step.holder
  cases hchannel : (binding.channel.subscribers slot).active <;>
    cases hregistration : (binding.registrations slot).active <;>
    simp [slotCell, hchannel, hregistration] at holder ⊢

/-- A change that leaves the slot and the registration leaves them in step. -/
theorem congr {binding' : NotificationChannelBinding κ} (step : InStep binding slot)
    (same : slotCell slot binding'.channel = slotCell slot binding.channel)
    (kept : binding'.registrations slot = binding.registrations slot) : InStep binding' slot := by
  refine ⟨?_, ?_, ?_⟩
  · rw [same, kept, step.generation]
  · rw [same, kept, step.holder]
  · rw [kept]
    exact step.handle

end InStep

namespace NotificationChannelBinding

/-- A new registration, with the slot of its channel. -/
def registered (binding : NotificationChannelBinding κ) (slot : Slot) (callback : Option κ) :
    NotificationChannelBinding κ :=
  { binding with channel := binding.channel.register slot (some slot) }.setRegistration slot
    { callback
      channelHandle :=
        ⟨runtimeChannelId, slot, nextGeneration (binding.registrations slot).generation⟩
      generation := nextGeneration (binding.registrations slot).generation
      active := true }

/-- The removal of a registration. -/
def released (binding : NotificationChannelBinding κ) (slot : Slot) :
    NotificationChannelBinding κ :=
  { binding with channel := binding.channel.release slot }.setRegistration slot
    (binding.registrations slot).clear

end NotificationChannelBinding

variable {binding : NotificationChannelBinding κ} {n : NotificationState κ}

theorem inStep_registered (steps : ∀ slot, InStep binding slot) (callback : Option κ)
    (other : Slot) :
    InStep (binding.registered slot callback) other := by
  by_cases same : other = slot
  · subst same
    have generation : nextCounter 16 (binding.channel.subscribers other).generation =
        nextGeneration (binding.registrations other).generation := by
      rw [← (steps other).generation]
      rfl
    refine ⟨?_, ?_, ?_⟩ <;>
      simp [NotificationChannelBinding.registered, setRegistration,
        slotCell_register, generation]
  · apply (steps other).congr
    · exact slotCell_register_of_ne same _ _
    · exact Function.update_of_ne same _ _

theorem inStep_released (steps : ∀ slot, InStep binding slot) (other : Slot) :
    InStep (binding.released slot) other := by
  by_cases same : other = slot
  · subst same
    have generation := (steps other).generation
    refine ⟨?_, ?_, ?_⟩ <;>
      simp [NotificationChannelBinding.released, setRegistration,
        NotificationRegistration.clear, slotCell_release]
    exact generation
  · apply (steps other).congr
    · exact slotCell_release_of_ne same _
    · exact Function.update_of_ne same _ _

/-! ### Dropping the registrations -/

/-- A drop of an active registration removes it with the slot of its channel. -/
theorem detach_of_active (rest : binding.channel.AtRest) (step : InStep binding slot)
    (live : (binding.registrations slot).active = true) :
    binding.detach slot = binding.released slot := by
  have generation : (binding.channel.subscribers slot).generation = _ := step.generation
  unfold detach NotificationChannelBinding.released
  rw [if_neg (by simp [live]), step.handle live, ← generation,
    unsubscribe_active rest (step.active.trans live)]

/-- What a row of drops leaves: the slots named are inactive, with their generations. -/
structure Dropped (binding binding' : NotificationChannelBinding κ) (slots : List Slot) : Prop where
  rest : binding'.channel.AtRest
  id : binding'.id = binding.id
  inStep : ∀ slot, InStep binding' slot
  generation : ∀ slot, (binding'.registrations slot).generation =
    (binding.registrations slot).generation
  inactive : ∀ slot, (binding.registrations slot).active = false ∨ slot ∈ slots →
    (binding'.registrations slot).active = false

theorem dropped_detach (rest : binding.channel.AtRest) (steps : ∀ slot, InStep binding slot)
    (slot : Slot) : Dropped binding (binding.detach slot) [slot] := by
  cases live : (binding.registrations slot).active with
  | false =>
    have same : binding.detach slot = binding := by
      simp [detach, live]
    rw [same]
    refine ⟨rest, rfl, steps, fun _ => rfl,
      fun other dropped => dropped.elim (fun h => h) fun h => ?_⟩
    rw [List.mem_singleton.mp h, live]
  | true =>
    rw [detach_of_active rest (steps slot) live]
    refine ⟨rest, rfl, inStep_released steps, fun other => ?_, fun other dropped => ?_⟩
    · by_cases same : other = slot
      · subst same
        simp [NotificationChannelBinding.released, setRegistration,
          NotificationRegistration.clear]
      · simp [NotificationChannelBinding.released, setRegistration,
          Function.update_of_ne same]
    · by_cases same : other = slot
      · subst same
        simp [NotificationChannelBinding.released, setRegistration,
          NotificationRegistration.clear]
      · have before := dropped.resolve_right fun h => same (List.mem_singleton.mp h)
        simp [NotificationChannelBinding.released, setRegistration,
          Function.update_of_ne same, before]

theorem dropped_foldl (rest : binding.channel.AtRest) (steps : ∀ slot, InStep binding slot)
    (slots : List Slot) :
    Dropped binding (slots.foldl detach binding) slots := by
  induction slots generalizing binding with
  | nil =>
    exact ⟨rest, rfl, steps, fun _ => rfl, fun _ h => h.elim (fun h => h) (nomatch ·)⟩
  | cons slot slots ih =>
    have first := dropped_detach rest steps slot
    have later := ih first.rest first.inStep
    rw [List.foldl_cons]
    refine ⟨later.rest, later.id.trans first.id, later.inStep,
      fun other => (later.generation other).trans (first.generation other), fun other dropped => ?_⟩
    rcases dropped with before | hmem
    · exact later.inactive other (Or.inl (first.inactive other (Or.inl before)))
    · rcases List.mem_cons.mp hmem with rfl | hmem
      · exact later.inactive other (Or.inl (first.inactive other (Or.inr List.mem_cons_self)))
      · exact later.inactive other (Or.inr hmem)

/-- **A drop of all registrations** leaves each of them inactive. -/
theorem dropped_detachAll (rest : binding.channel.AtRest) (steps : ∀ slot, InStep binding slot) :
    Dropped binding binding.detachAll (List.finRange kNotificationSubscribersPerChannel) :=
  dropped_foldl rest steps _

/-! ### What holds in every run -/

theorem channels_setChannel (n : NotificationState κ) (index : ℕ)
    (binding : NotificationChannelBinding κ) (other : ℕ) :
    (n.setChannel index binding).channels other =
      if other = index then binding else n.channels other := by
  simp only [setChannel, Function.update_apply]

theorem channels_mapChannels (n : NotificationState κ)
    (f : NotificationChannelBinding κ → NotificationChannelBinding κ) (index : ℕ) :
    (n.mapChannels f).channels index =
      if index < n.channelCount then f (n.channels index) else n.channels index := rfl

/-- What holds of the notifications of a provider in every run. -/
structure Consistent (s : ProfileState) (n : NotificationState κ) : Prop where
  count : n.channelCount = (initializeNotificationChannels κ s).channelCount
  few : n.channelCount ≤ kMaxNotifyBindings
  ids : ∀ index, (n.channels index).id = ((initializeNotificationChannels κ s).channels index).id
  inStep : ∀ index slot, InStep (n.channels index) slot
  rest : n.running = false → ∀ index < n.channelCount, (n.channels index).channel.AtRest

variable {f : NotificationChannelBinding κ → NotificationChannelBinding κ}

namespace Consistent

variable {s : ProfileState} {n : NotificationState κ}

/-- One channel changes. -/
theorem setChannel (consistent : Consistent s n) (id : binding.id = (n.channels index).id)
    (steps : ∀ slot, InStep binding slot)
    (rest : (n.channels index).channel.AtRest → binding.channel.AtRest) :
    Consistent s (n.setChannel index binding) := by
  refine ⟨consistent.count, consistent.few, fun other => ?_, fun other slot => ?_,
    fun stopped other within => ?_⟩ <;>
    rw [channels_setChannel] <;> split
  · rename_i same
    rw [same, id, consistent.ids index]
  · exact consistent.ids other
  · exact steps slot
  · exact consistent.inStep other slot
  · rename_i same
    exact rest (consistent.rest stopped index (same ▸ within))
  · exact consistent.rest stopped other within

/-- Every channel changes while the provider runs. -/
theorem mapChannels (consistent : Consistent s n) (running : n.running = true)
    (id : ∀ binding, (f binding).id = binding.id)
    (steps : ∀ binding slot, InStep binding slot → InStep (f binding) slot) :
    Consistent s (n.mapChannels f) := by
  refine ⟨consistent.count, consistent.few, fun index => ?_, fun index slot => ?_,
    fun stopped => ?_⟩
  · rw [channels_mapChannels, ← consistent.ids index]
    split
    · exact id _
    · rfl
  · rw [channels_mapChannels]
    split
    · exact steps _ slot (consistent.inStep index slot)
    · exact consistent.inStep index slot
  · exact absurd (running.symm.trans stopped) (by decide)

end Consistent

/-- A change of the channel alone leaves the registrations in step where it keeps the slots. -/
theorem InStep.setChannel (step : InStep binding slot)
    (same : slotCell slot channel = slotCell slot binding.channel) :
    InStep { binding with channel } slot :=
  step.congr same rfl

theorem registrations_publishInitial (readings : SignalId → Except SignalStatus SignalReading)
    (binding : NotificationChannelBinding κ) :
    (binding.publishInitial readings).registrations = binding.registrations := by
  unfold publishInitial
  split <;> rfl

theorem registrations_mapChannels (n : NotificationState κ)
    (same : ∀ binding, (f binding).registrations = binding.registrations) (index : ℕ) :
    ((n.mapChannels f).channels index).registrations =
      (n.channels index).registrations := by
  rw [channels_mapChannels]
  split
  · exact same _
  · rfl

theorem inStep_publishInitial (step : InStep binding slot) :
    InStep (binding.publishInitial readings) slot := by
  unfold publishInitial
  split
  · exact step.setChannel (slotCell_publish slot _ _)
  · exact step

theorem inStep_publishResult {result : ProviderProcessResult} (step : InStep binding slot) :
    InStep (binding.publishResult result readings) slot := by
  unfold NotificationChannelBinding.publishResult
  dsimp only
  split
  · exact step
  split
  · exact step
  · apply step.setChannel
    rw [slotCell_publish]
    split
    · exact slotCell_publish slot _ _
    · rfl

theorem publishResult_frame (result : ProviderProcessResult)
    (readings : SignalId → Except SignalStatus SignalReading)
    (binding : NotificationChannelBinding κ) :
    (binding.publishResult result readings).id = binding.id ∧
      (binding.publishResult result readings).registrations = binding.registrations := by
  unfold NotificationChannelBinding.publishResult
  dsimp only
  split
  · exact ⟨rfl, rfl⟩
  · split <;> exact ⟨rfl, rfl⟩

/-! ### The calls on registrations -/

/-- A registration of a consistent provider is refused, or it takes an inactive place. -/
theorem NotificationState.subscribe_cases (consistent : Consistent s n) (id : SignalId)
    (callback : Option κ) (ownerAllowed : Bool) :
    (∃ status, n.subscribe s id callback ownerAllowed = (n, .error status)) ∨
      ∃ (index : ℕ) (slot : Slot), s.validTables = true ∧ index < n.channelCount ∧
        (n.channels index).id = id ∧ n.running = false ∧
        ((n.channels index).registrations slot).active = false ∧
        n.subscribe s id callback ownerAllowed =
          (n.setChannel index ((n.channels index).registered slot callback),
            .ok (encodeSubscription index slot
              (nextGeneration ((n.channels index).registrations slot).generation))) := by
  unfold subscribe
  split
  · exact Or.inl ⟨_, rfl⟩
  split
  · exact Or.inl ⟨_, rfl⟩
  split
  · exact Or.inl ⟨_, rfl⟩
  rename_i valid
  split
  · exact Or.inl ⟨_, rfl⟩
  rename_i stopped
  split
  · exact Or.inl ⟨_, rfl⟩
  split
  · exact Or.inl ⟨_, rfl⟩
  dsimp only
  split
  · exact Or.inl ⟨_, rfl⟩
  rename_i within
  split
  · exact Or.inl ⟨_, rfl⟩
  rename_i slot free
  have stopped : n.running = false := (Bool.or_eq_false_iff.mp (by simpa using stopped)).1
  have steps := consistent.inStep (n.findChannelIndex id)
  have rest := consistent.rest stopped _ (Nat.lt_of_not_le within)
  -- the channel has the same inactive slots, so it takes the same one
  have freeChannel : (List.finRange kNotificationSubscribersPerChannel).find?
      (fun index => !((n.channels (n.findChannelIndex id)).channel.subscribers index).active) =
        some slot := by
    simpa only [(steps _).active] using free
  have generation : ((n.channels (n.findChannelIndex id)).channel.subscribers slot).generation =
      ((n.channels (n.findChannelIndex id)).registrations slot).generation :=
    (steps slot).generation
  refine Or.inr ⟨n.findChannelIndex id, slot, by simpa using valid, Nat.lt_of_not_le within, ?_,
    stopped, by simpa using List.find?_some free, ?_⟩
  · have found : ∃ index, (List.range n.channelCount).find?
        (fun index => (n.channels index).id == id) = some index := by
      cases hfind : (List.range n.channelCount).find? fun index => (n.channels index).id == id with
      | none => exact absurd (by simp [findChannelIndex, hfind]) within
      | some index => exact ⟨index, rfl⟩
    obtain ⟨index, hfind⟩ := found
    have same : n.findChannelIndex id = index := by simp [findChannelIndex, hfind]
    rw [same]
    simpa using List.find?_some hfind
  · rw [subscribe_of_find rest freeChannel]
    simp only [generation]
    rfl

/-- A removal at a consistent provider is refused, or it removes the registration that the token
names. -/
theorem NotificationState.unsubscribe_cases (consistent : Consistent s n)
    (subscription : SignalSubscription) (ownerAllowed : Bool) :
    (∃ status, status ≠ .ok ∧ n.unsubscribe s subscription ownerAllowed = (n, status)) ∨
      ∃ decoded, decodeSubscription subscription n.channelCount = some decoded ∧
        n.running = false ∧ n.callbackActive = false ∧ ownerAllowed = true ∧
        ((n.channels decoded.channelIndex).registrations decoded.slot).active = true ∧
        ((n.channels decoded.channelIndex).registrations decoded.slot).generation =
          decoded.generation ∧
        n.unsubscribe s subscription ownerAllowed =
          (n.setChannel decoded.channelIndex
            ((n.channels decoded.channelIndex).released decoded.slot), .ok) := by
  unfold unsubscribe
  split
  · exact Or.inl ⟨_, by decide, rfl⟩
  split
  · exact Or.inl ⟨_, by decide, rfl⟩
  rename_i stopped
  split
  · exact Or.inl ⟨_, by decide, rfl⟩
  rename_i owner
  split
  · exact Or.inl ⟨_, by decide, rfl⟩
  rename_i decoded decodes
  dsimp only
  split
  · exact Or.inl ⟨_, by decide, rfl⟩
  rename_i live
  obtain ⟨stopped, quiet⟩ := Bool.or_eq_false_iff.mp (Bool.not_eq_true _ ▸ stopped)
  obtain ⟨live, same⟩ := Bool.or_eq_false_iff.mp (Bool.not_eq_true _ ▸ live)
  have live : ((n.channels decoded.channelIndex).registrations decoded.slot).active = true := by
    simpa using live
  have step := consistent.inStep decoded.channelIndex decoded.slot
  have rest := consistent.rest stopped _ (decodeSubscription_eq_some.mp decodes).2.2.1
  have generation : ((n.channels decoded.channelIndex).channel.subscribers
    decoded.slot).generation = _ := step.generation
  refine Or.inr ⟨decoded, decodes, stopped, quiet, by simpa using owner, live,
    by simpa using same, ?_⟩
  rw [step.handle live, ← generation, unsubscribe_active rest (step.active.trans live)]
  rfl

/-- A removal at rest succeeds where the token names an active registration. -/
theorem NotificationState.unsubscribe_active (consistent : Consistent s n)
    (valid : s.validTables = true) (stopped : n.running = false) (quiet : n.callbackActive = false)
    (decodes : decodeSubscription subscription n.channelCount = some decoded)
    (active : ((n.channels decoded.channelIndex).registrations decoded.slot).active = true)
    (same : ((n.channels decoded.channelIndex).registrations decoded.slot).generation =
      decoded.generation) : (n.unsubscribe s subscription true).2 = .ok := by
  have step := consistent.inStep decoded.channelIndex decoded.slot
  have rest := consistent.rest stopped _ (decodeSubscription_eq_some.mp decodes).2.2.1
  have generation : ((n.channels decoded.channelIndex).channel.subscribers
    decoded.slot).generation = _ := step.generation
  unfold unsubscribe
  rw [if_neg (by simp [valid]), if_neg (by simp [stopped, quiet]), if_neg (by simp), decodes]
  dsimp only
  rw [if_neg (by simp [active, same]), step.handle active, ← generation,
    SignalNotification.unsubscribe_active rest (step.active.trans active)]

/-! ### Starting and stopping -/

theorem start_of_atRest (rest : c.AtRest) : c.start.2 = .ok := by
  unfold Channel.start
  rw [if_neg (by simp [rest.1, rest.2])]

theorem atRest_stop (stopped : c.stop.2 = .ok) : c.stop.1.AtRest := by
  unfold Channel.stop at stopped ⊢
  split at stopped
  · cases stopped
  rename_i quiet
  split at stopped
  · cases stopped
  rename_i running
  rw [if_neg quiet, if_neg running]
  exact ⟨(Bool.or_eq_false_iff.mp (by simpa using quiet)).1, rfl⟩

/-- What a change of the lifecycle does to the registrations. -/
inductive Lifecycle (s : ProfileState) (n n' : NotificationState κ) : Prop
  | kept (consistent : Consistent s n')
      (registrations : ∀ index,
        (n'.channels index).registrations = (n.channels index).registrations)
      (noStop : ¬(n.running = true ∧ n'.running = false))
  | dropped (consistent : Consistent s n') (running : n.running = true)
      (stopped : n'.running = false)
      (generation : ∀ index slot, ((n'.channels index).registrations slot).generation =
        ((n.channels index).registrations slot).generation)
      (inactive : ∀ index < n.channelCount, ∀ slot,
        ((n'.channels index).registrations slot).active = false)

section

variable (consistent : Consistent s n)
include consistent

theorem Lifecycle.refl : Lifecycle s n n :=
  .kept consistent (fun _ => rfl) fun h => absurd (h.1.symm.trans h.2) (by decide)

theorem lifecycle_start (stopped : n.running = false)
    (readings : SignalId → Except SignalStatus SignalReading) :
    Lifecycle s n (n.start readings) := by
  have allStart : (List.range n.channelCount).find? (fun index =>
      (n.channels index).channel.start.2 != .ok) = none := by
    rw [List.find?_eq_none]
    intro index within
    rw [start_of_atRest (consistent.rest stopped index (List.mem_range.mp within))]
    decide
  have started : Consistent s { n.mapChannels fun binding =>
      { binding with channel := binding.channel.start.1 } with running := true } := by
    refine ⟨consistent.count, consistent.few, fun index => ?_, fun index slot => ?_, fun h => ?_⟩
    · dsimp only
      rw [channels_mapChannels, ← consistent.ids index]
      split <;> rfl
    · dsimp only
      rw [channels_mapChannels]
      split
      · exact (consistent.inStep index slot).setChannel (slotCell_start slot _)
      · exact consistent.inStep index slot
    · cases h
  unfold start
  rw [allStart]
  refine .kept (started.mapChannels rfl (fun binding => ?_) fun binding slot =>
    inStep_publishInitial) (fun index => ?_) fun h => ?_
  · unfold publishInitial
    split <;> rfl
  · rw [registrations_mapChannels _ (registrations_publishInitial readings)]
    exact @registrations_mapChannels _
      (fun binding => { binding with channel := binding.channel.start.1 }) n (fun _ => rfl) index
  · exact absurd (stopped.symm.trans h.1) (by decide)

/-- **A stop that succeeds drops every registration**; another one drops none. -/
theorem lifecycle_stop (running : n.running = true) : Lifecycle s n n.stop := by
  have stopped : Consistent s (n.mapChannels fun binding =>
      { binding with channel := binding.channel.stop.1 }) :=
    consistent.mapChannels running (fun _ => rfl) fun binding slot step =>
      step.setChannel (slotCell_stop slot _)
  unfold stop
  split
  · refine .kept stopped (registrations_mapChannels n fun _ => rfl) fun h => ?_
    exact absurd (running.symm.trans h.2) (by decide)
  rename_i allStopped
  have rest : ∀ index < n.channelCount, (n.channels index).channel.stop.1.AtRest := by
    intro index within
    apply atRest_stop
    by_contra failed
    exact allStopped (List.any_eq_true.mpr
      ⟨index, List.mem_range.mpr within, by simpa using failed⟩)
  have drop : ∀ index < n.channelCount, Dropped
      { n.channels index with channel := (n.channels index).channel.stop.1 }
      (detachAll
        { n.channels index with channel := (n.channels index).channel.stop.1 }) _ :=
    fun index within => dropped_detachAll (rest index within) fun slot =>
      (consistent.inStep index slot).setChannel (slotCell_stop slot _)
  have channels : ∀ index, ((mapChannels (n.mapChannels fun binding =>
      { binding with channel := binding.channel.stop.1 })
      detachAll).channels index) =
        if index < n.channelCount then detachAll
          { n.channels index with channel := (n.channels index).channel.stop.1 }
        else n.channels index := by
    intro index
    rw [channels_mapChannels, channels_mapChannels]
    by_cases within : index < n.channelCount
    · rw [if_pos within, if_pos within]
      exact if_pos within
    · rw [if_neg within, if_neg within]
      exact if_neg within
  refine .dropped ⟨consistent.count, consistent.few, fun index => ?_, fun index slot => ?_,
    fun _ index within => ?_⟩ running rfl (fun index slot => ?_) fun index within slot => ?_ <;>
    dsimp only <;> rw [channels index]
  · split
    · rename_i within
      exact (drop index within).id.trans (consistent.ids index)
    · exact consistent.ids index
  · split
    · rename_i within
      exact (drop index within).inStep slot
    · exact consistent.inStep index slot
  · have within : index < n.channelCount := within
    rw [if_pos within]
    exact (drop index within).rest
  · split
    · rename_i within
      exact (drop index within).generation slot
    · rfl
  · rw [if_pos within]
    exact (drop index within).inactive slot (Or.inr (List.mem_finRange slot))

theorem lifecycle_setRunning (running : Bool)
    (readings : SignalId → Except SignalStatus SignalReading) :
    Lifecycle s n (n.setRunning s running readings) := by
  unfold setRunning
  split
  · exact .refl consistent
  split
  · exact .refl consistent
  split
  · split
    · exact .refl consistent
    · rename_i stopped
      exact lifecycle_start consistent (by simpa using stopped) readings
  · split
    · exact .refl consistent
    · rename_i running
      exact lifecycle_stop consistent (by simpa using running)

/-! ### One call -/

theorem inStep_setChannel_self
    (same : ∀ slot, slotCell slot channel = slotCell slot (n.channels index).channel)
    (rest : (n.channels index).channel.AtRest → channel.AtRest) :
    Consistent s (n.setChannel index { n.channels index with channel }) :=
  consistent.setChannel rfl (fun slot => (consistent.inStep index slot).setChannel (same slot)) rest

end

theorem atRest_dispatchOne (rest : c.AtRest) : c.dispatchOne.1.AtRest := by
  unfold Channel.dispatchOne
  rw [if_pos (by simp [rest.2])]
  exact rest

/-- **A call keeps the registrations in step with the channels.** -/
theorem consistent_step (consistent : Consistent s n) (call : NotificationCall κ) :
    Consistent s (n.step s call).1 := by
  cases call with
  | subscribe id callback ownerAllowed =>
    show Consistent s (n.subscribe s id callback ownerAllowed).1
    rcases subscribe_cases consistent id callback ownerAllowed with
      ⟨status, heq⟩ | ⟨index, slot, -, -, -, -, -, heq⟩
    · rwa [heq]
    · rw [heq]
      exact consistent.setChannel rfl (inStep_registered (consistent.inStep index) callback)
        fun rest => rest
  | unsubscribe subscription ownerAllowed =>
    show Consistent s (n.unsubscribe s subscription ownerAllowed).1
    rcases unsubscribe_cases consistent subscription ownerAllowed with
      ⟨status, -, heq⟩ | ⟨decoded, -, -, -, -, -, -, heq⟩
    · rwa [heq]
    · rw [heq]
      exact consistent.setChannel rfl (inStep_released (consistent.inStep decoded.channelIndex))
        fun rest => rest
  | setRunning running readings =>
    show Consistent s (n.setRunning s running readings)
    rcases lifecycle_setRunning consistent running readings with h | h
    · exact h
    · exact h
  | publish result readings =>
    show Consistent s (n.publish s result readings)
    unfold publish
    split
    · exact consistent
    · rename_i started
      have running : n.running = true := by
        cases hrunning : n.running with
        | true => rfl
        | false => exact absurd (by rw [hrunning, Bool.or_comm]; rfl) started
      exact consistent.mapChannels running
        (fun binding => (publishResult_frame result readings binding).1)
        fun binding slot => inStep_publishResult
  | dispatchOne index =>
    show Consistent s (n.dispatchOne index).1
    unfold dispatchOne
    split
    · exact consistent
    · exact inStep_setChannel_self consistent (fun slot => slotCell_dispatchOne slot _)
        atRest_dispatchOne
  | trampolineEntered index slot notice =>
    show Consistent s (n.notificationTrampoline index slot notice).1
    unfold notificationTrampoline
    dsimp only
    split
    · exact ⟨consistent.count, consistent.few, consistent.ids, consistent.inStep, consistent.rest⟩
    · exact consistent
  | trampolineLeft =>
    exact ⟨consistent.count, consistent.few, consistent.ids, consistent.inStep, consistent.rest⟩
  | callbackReturned index =>
    show Consistent s (n.callbackReturned index)
    unfold callbackReturned
    split
    · exact consistent
    · exact inStep_setChannel_self consistent (fun _ => rfl) fun rest => ⟨rfl, rest.2⟩

/-- A registration as a place. -/
def registrationCell (index : ℕ) (slot : Slot) (n : NotificationState κ) :
    Cell (NotificationRegistration κ) where
  generation := ((n.channels index).registrations slot).generation
  holder :=
    if ((n.channels index).registrations slot).active then
      some ((n.channels index).registrations slot)
    else none

/-- The channel and the slot that a token names. -/
def placeOf (subscription : SignalSubscription) (channelCount : ℕ) : Option (ℕ × Slot) :=
  (decodeSubscription subscription channelCount).map fun decoded =>
    (decoded.channelIndex, decoded.slot)

/-- What a call does to the registration at a place, by its answer. -/
def registrationEvent (s : ProfileState) (index : ℕ) (slot : Slot) (n : NotificationState κ) :
    NotificationCall κ → Event
  | .subscribe id callback ownerAllowed =>
    match (n.subscribe s id callback ownerAllowed).2 with
    | .ok issued => if placeOf issued n.channelCount = some (index, slot) then .taken else .kept
    | .error _ => .kept
  | .unsubscribe subscription ownerAllowed =>
    match decodeSubscription subscription n.channelCount with
    | some decoded =>
      if (n.unsubscribe s subscription ownerAllowed).2 = .ok ∧ decoded.channelIndex = index ∧
          decoded.slot = slot then .freed decoded.generation
      else .kept
    | none => .kept
  | .setRunning running readings =>
    if n.running = true ∧ (n.setRunning s running readings).running = false then .cleared else .kept
  | _ => .kept

theorem registrationCell_congr {n' : NotificationState κ}
    (same : (n'.channels index).registrations slot = (n.channels index).registrations slot) :
    registrationCell index slot n' = registrationCell index slot n := by
  simp only [registrationCell, same]

/-- A change at another place. -/
theorem registrationCell_setRegistration_of_ne {other : ℕ} {place : Slot}
    (distinct : ¬(index = other ∧ slot = place)) (channel : Channel SignalValue Slot)
    (registration : NotificationRegistration κ) :
    registrationCell other place (n.setChannel index
      ({ n.channels index with channel }.setRegistration slot registration)) =
        registrationCell other place n := by
  apply registrationCell_congr
  rw [channels_setChannel]
  split
  · rename_i same
    have apart : place ≠ slot := fun h => distinct ⟨same.symm, h.symm⟩
    rw [same]
    exact Function.update_of_ne apart _ _
  · rfl

/-- A change at the place itself. -/
theorem registrationCell_setRegistration (n : NotificationState κ) (index : ℕ) (slot : Slot)
    (channel : Channel SignalValue Slot) (registration : NotificationRegistration κ) :
    registrationCell index slot (n.setChannel index
      ({ n.channels index with channel }.setRegistration slot registration)) =
        ⟨registration.generation, if registration.active then some registration else none⟩ := by
  simp only [registrationCell, channels_setChannel, if_true,
    setRegistration, Function.update_self]

theorem registrationCell_of_inactive
    (inactive : ((n.channels index).registrations slot).active = false) :
    registrationCell index slot n =
      ⟨((n.channels index).registrations slot).generation, none⟩ := by
  simp [registrationCell, inactive]

theorem registrationCell_of_active
    (active : ((n.channels index).registrations slot).active = true) :
    registrationCell index slot n =
      ⟨((n.channels index).registrations slot).generation,
        some ((n.channels index).registrations slot)⟩ := by
  simp [registrationCell, active]

/-- The token of a registration names its place. -/
theorem placeOf_encode (consistent : Consistent s n) (within : index < n.channelCount)
    (slot : Slot) :
    placeOf (encodeSubscription index slot (nextGeneration generation)) n.channelCount =
      some (index, slot) := by
  have few : n.channelCount < 2 ^ 8 :=
    Nat.lt_of_le_of_lt consistent.few (by decide)
  exact congrArg (Option.map _) (decode_encode within few slot (nextCounter_pos 16 generation)
    (nextCounter_lt (by decide) generation))

/-- **One call does to a registration what its answer says.** -/
theorem registration_step (consistent : Consistent s n) (within : index < n.channelCount)
    (slot : Slot) (call : NotificationCall κ) :
    Step nextGeneration (registrationCell index slot n) (registrationEvent s index slot n call)
      (registrationCell index slot (n.step s call).1) := by
  cases call with
  | subscribe id callback ownerAllowed =>
    simp only [step, registrationEvent]
    rcases subscribe_cases consistent id callback ownerAllowed with
      ⟨status, heq⟩ | ⟨taken, place, -, inside, -, -, inactive, heq⟩
    · rw [heq]
      exact Step.kept _
    · rw [heq]
      dsimp only
      rw [placeOf_encode consistent inside]
      by_cases same : taken = index ∧ place = slot
      · obtain ⟨rfl, rfl⟩ := same
        rw [if_pos rfl, registrationCell_of_inactive inactive,
          NotificationChannelBinding.registered, registrationCell_setRegistration]
        exact Step.taken _ _
      · rw [if_neg (by simpa using same), NotificationChannelBinding.registered,
          registrationCell_setRegistration_of_ne same]
        exact Step.kept _
  | unsubscribe subscription ownerAllowed =>
    simp only [step, registrationEvent]
    rcases unsubscribe_cases consistent subscription ownerAllowed with
      ⟨status, refused, heq⟩ | ⟨decoded, decodes, -, -, -, active, generation, heq⟩
    · rw [heq]
      have kept : (match decodeSubscription subscription n.channelCount with
          | some decoded =>
            if status = SignalStatus.ok ∧ decoded.channelIndex = index ∧ decoded.slot = slot then
              Event.freed decoded.generation
            else .kept
          | none => .kept) = .kept := by
        split
        · exact if_neg fun h => refused h.1
        · rfl
      rw [kept]
      exact Step.kept _
    · rw [heq, decodes]
      dsimp only
      by_cases same : decoded.channelIndex = index ∧ decoded.slot = slot
      · rw [if_pos ⟨rfl, same⟩]
        obtain ⟨rfl, rfl⟩ := same
        rw [registrationCell_of_active active, NotificationChannelBinding.released,
          registrationCell_setRegistration, ← generation]
        exact Step.freed _ _
      · rw [if_neg fun h => same h.2, NotificationChannelBinding.released,
          registrationCell_setRegistration_of_ne same]
        exact Step.kept _
  | setRunning running readings =>
    simp only [step, registrationEvent]
    rcases lifecycle_setRunning consistent running readings with
      ⟨-, registrations, noStop⟩ | ⟨-, started, stopped, generation, inactive⟩
    · rw [if_neg noStop, registrationCell_congr (congrFun (registrations index) slot)]
      exact Step.kept _
    · rw [if_pos ⟨started, stopped⟩, registrationCell_of_inactive (inactive index within slot),
        generation index slot]
      exact Step.cleared _
  | publish result readings =>
    have same : registrationCell index slot (n.publish s result readings) =
        registrationCell index slot n := by
      apply registrationCell_congr
      unfold publish
      split
      · rfl
      · rw [registrations_mapChannels n fun binding =>
          (publishResult_frame result readings binding).2]
    exact same.symm ▸ Step.kept _
  | dispatchOne channel =>
    have same : registrationCell index slot (n.dispatchOne channel).1 =
        registrationCell index slot n := by
      apply registrationCell_congr
      unfold dispatchOne
      split
      · rfl
      · dsimp only
        rw [channels_setChannel]
        split
        · rename_i same
          rw [same]
        · rfl
    exact same.symm ▸ Step.kept _
  | trampolineEntered channel place notice =>
    have same : registrationCell index slot (n.notificationTrampoline channel place notice).1 =
        registrationCell index slot n := by
      unfold notificationTrampoline
      dsimp only
      split <;> rfl
    exact same.symm ▸ Step.kept _
  | trampolineLeft => exact Step.kept _
  | callbackReturned channel =>
    have same : registrationCell index slot (n.callbackReturned channel) =
        registrationCell index slot n := by
      apply registrationCell_congr
      unfold callbackReturned
      split
      · rfl
      · rw [channels_setChannel]
        split
        · rename_i same
          rw [same]
        · rfl
    exact same.symm ▸ Step.kept _

/-! ### Every run -/

/-- The call removes the token: it unsubscribes it, or it stops the provider. -/
def revokes (s : ProfileState) (token : SignalSubscription) :
    NotificationState κ × NotificationCall κ → Prop
  | (n, .unsubscribe subscription ownerAllowed) =>
    subscription = token ∧ (n.unsubscribe s subscription ownerAllowed).2 = .ok
  | (n, .setRunning running readings) =>
    n.running = true ∧ (n.setRunning s running readings).running = false
  | _ => False

/-- The token was removed in a run. -/
def revoked (s : ProfileState) (token : SignalSubscription)
    (moves : List (NotificationState κ × NotificationCall κ)) : Prop :=
  ∃ move ∈ moves, revokes s token move

/-- The call takes the place of the token. -/
def retakes (s : ProfileState) (token : SignalSubscription) :
    NotificationState κ × NotificationCall κ → Bool
  | (n, .subscribe id callback ownerAllowed) =>
    match (n.subscribe s id callback ownerAllowed).2 with
    | .ok issued => placeOf issued n.channelCount == placeOf token n.channelCount
    | .error _ => false
  | _ => false

/-- How often the place of a token was taken in a run. -/
def retaken (s : ProfileState) (token : SignalSubscription)
    (moves : List (NotificationState κ × NotificationCall κ)) : ℕ :=
  moves.countP (retakes s token)

theorem consistent_after (consistent : Consistent s n) (calls : List (NotificationCall κ)) :
    Consistent s (after (step s) n calls) := by
  induction calls generalizing n with
  | nil => exact consistent
  | cons call calls ih => exact ih (consistent_step consistent call)

/-- The notifications of a provider start consistent. -/
theorem consistent_initial (tables : ProfileTables) (synchronizationWellFormed : Bool) :
    Consistent (ProfileState.create tables synchronizationWellFormed)
      (initializeNotificationChannels κ
        (ProfileState.create tables synchronizationWellFormed)) := by
  unfold initializeNotificationChannels
  split
  · rename_i valid
    obtain ⟨wellFormed, -⟩ := Bool.and_eq_true_iff.mp
      (show (decide (tableWellFormed tables) && synchronizationWellFormed) = true from valid)
    have few := (of_decide_eq_true wellFormed).2.2.2.2.2.2.1
    rw [List.countP_eq_length_filter] at few
    refine ⟨?_, few, ?_, fun index slot => ⟨rfl, rfl, (nomatch ·)⟩, fun _ index _ => ⟨rfl, rfl⟩⟩ <;>
      simp [initializeNotificationChannels, valid]
  · rename_i invalid
    refine ⟨?_, Nat.zero_le _, ?_, fun index slot => ⟨rfl, rfl, (nomatch ·)⟩,
      fun _ index _ => ⟨rfl, rfl⟩⟩ <;> simp [initializeNotificationChannels, invalid]

/-- A registration runs as a place. -/
theorem registration_run (consistent : Consistent s n) (within : index < n.channelCount)
    (slot : Slot) (calls : List (NotificationCall κ)) :
    Run nextGeneration (registrationCell index slot n)
      ((moves (step s) n calls).map fun move =>
        registrationEvent s index slot move.1 move.2)
      (registrationCell index slot (after (step s) n calls)) := by
  have inside : ∀ {n' : NotificationState κ}, Consistent s n' → index < n'.channelCount :=
    fun consistent' => by rw [consistent'.count, ← consistent.count]; exact within
  exact run_of_moves (Consistent s) (fun _ call h => consistent_step h call)
    (fun _ call h => registration_step h (inside h) slot call) calls consistent

/-- What the token of a registration does in a later state. It names the registration, its signal
and the handle of its channel until the registration is removed; its removal succeeds at rest
until then, and removes the registration and nothing else. -/
structure TokenHonoured (s : ProfileState) (token : SignalSubscription) (id : SignalId)
    (callback : Option κ) (decoded : DecodedSubscription) (revoked : Prop)
    (now : NotificationState κ) : Prop where
  decodes : decodeSubscription token now.channelCount = some decoded
  signal : (now.channels decoded.channelIndex).id = id
  held : ¬revoked →
    (now.channels decoded.channelIndex).registrations decoded.slot =
      { callback
        channelHandle := ⟨runtimeChannelId, decoded.slot, decoded.generation⟩
        generation := decoded.generation
        active := true } ∧
    (now.channels decoded.channelIndex).channel.findSubscriber runtimeChannelId
      ⟨runtimeChannelId, decoded.slot, decoded.generation⟩ = some decoded.slot
  succeeds : ∀ ownerAllowed, (now.unsubscribe s token ownerAllowed).2 = .ok ↔
    (ownerAllowed = true ∧ now.running = false ∧ now.callbackActive = false) ∧ ¬revoked
  releases : ∀ ownerAllowed, (now.unsubscribe s token ownerAllowed).2 = .ok →
    (now.unsubscribe s token ownerAllowed).1 = now.setChannel decoded.channelIndex
      ((now.channels decoded.channelIndex).released decoded.slot)
  refused : ∀ ownerAllowed, (now.unsubscribe s token ownerAllowed).2 ≠ .ok →
    (now.unsubscribe s token ownerAllowed).1 = now

/-- The holder of a place is sent away where its token is removed. -/
theorem left_registrationEvent (consistent : Consistent s n)
    (decodes : decodeSubscription token n.channelCount = some decoded)
    (calls : List (NotificationCall κ)) :
    Left decoded.generation ((moves (step s) n calls).map fun move =>
        registrationEvent s decoded.channelIndex decoded.slot move.1 move.2) ↔
      revoked s token (moves (step s) n calls) := by
  induction calls generalizing n with
  | nil => simp [moves, Left, revoked]
  | cons call calls ih =>
    have after := consistent_step consistent call
    have sameCount : (n.step s call).1.channelCount = n.channelCount :=
      after.count.trans consistent.count.symm
    rw [moves, List.map_cons, left_cons, ih after (by rw [sameCount]; exact decodes)]
    have head : (registrationEvent s decoded.channelIndex decoded.slot n call =
        .freed decoded.generation ∨
        registrationEvent s decoded.channelIndex decoded.slot n call = .cleared) ↔
        revokes s token (n, call) := by
      cases call with
      | subscribe id callback ownerAllowed =>
        simp only [registrationEvent, revokes]
        split
        · split <;> simp
        · simp
      | unsubscribe subscription ownerAllowed =>
        simp only [registrationEvent, revokes]
        split
        · rename_i other hother
          constructor
          · intro h
            split at h
            · rename_i named
              obtain ⟨index, slot, generation⟩ := other
              obtain ⟨ok, rfl, rfl⟩ := named
              obtain rfl : generation = decoded.generation := by simpa using h
              exact ⟨(encode_of_decode hother).trans (encode_of_decode decodes).symm, ok⟩
            · simp at h
          · rintro ⟨rfl, ok⟩
            obtain rfl := Option.some.inj (hother.symm.trans decodes)
            rw [if_pos ⟨ok, rfl, rfl⟩]
            exact Or.inl rfl
        · rename_i undecoded
          refine iff_of_false (by simp) ?_
          rintro ⟨rfl, -⟩
          exact absurd (undecoded.symm.trans decodes) (by simp)
      | setRunning running readings =>
        simp only [registrationEvent, revokes]
        split
        · rename_i stops
          exact iff_of_true (Or.inr rfl) stops
        · rename_i noStop
          exact iff_of_false (by simp) noStop
      | _ => simp [registrationEvent, revokes]
    rw [head, revoked, revoked]
    simp only [List.mem_cons, exists_eq_or_imp]

theorem registrationEvent_eq_taken (place : placeOf token n.channelCount = some (index, slot))
    (call : NotificationCall κ) :
    registrationEvent s index slot n call = .taken ↔ retakes s token (n, call) = true := by
  cases call with
  | subscribe id callback ownerAllowed =>
    simp only [registrationEvent, retakes]
    cases (n.subscribe s id callback ownerAllowed).2 with
    | ok issued => simp [place]
    | error status => simp
  | unsubscribe subscription ownerAllowed =>
    simp only [registrationEvent, retakes]
    cases decodeSubscription subscription n.channelCount with
    | some decoded =>
      dsimp only
      split <;> simp
    | none => simp
  | setRunning running readings =>
    simp only [registrationEvent, retakes]
    split <;> simp
  | _ => simp [registrationEvent, retakes]

theorem takes_registrationEvent (consistent : Consistent s n)
    (place : placeOf token n.channelCount = some (index, slot))
    (calls : List (NotificationCall κ)) :
    takes ((moves (step s) n calls).map fun move =>
        registrationEvent s index slot move.1 move.2) =
      retaken s token (moves (step s) n calls) := by
  induction calls generalizing n with
  | nil => rfl
  | cons call calls ih =>
    have after := consistent_step consistent call
    have sameCount : (n.step s call).1.channelCount = n.channelCount :=
      after.count.trans consistent.count.symm
    have rest := ih after (by rw [sameCount]; exact place)
    rw [moves, List.map_cons, takes, List.countP_cons, retaken, List.countP_cons]
    refine congrArg₂ (· + ·) rest ?_
    simp only [decide_eq_true_eq, registrationEvent_eq_taken place call]

/-- A token after any calls from a state that holds its registration. -/
theorem tokenHonoured_of_held (consistent : Consistent s n) (valid : s.validTables = true)
    {callback : Option κ} (decodes : decodeSubscription token n.channelCount = some decoded)
    (holds : (n.channels decoded.channelIndex).registrations decoded.slot =
      { callback
        channelHandle := ⟨runtimeChannelId, decoded.slot, decoded.generation⟩
        generation := decoded.generation
        active := true }) (since : List (NotificationCall κ))
    (few : retaken s token (moves (step s) n since) < 65535) :
    TokenHonoured s token (n.channels decoded.channelIndex).id callback decoded
      (revoked s token (moves (step s) n since))
      (after (step s) n since) := by
  obtain ⟨-, -, within, positive, narrow⟩ := decodeSubscription_eq_some.mp decodes
  have place : placeOf token n.channelCount = some (decoded.channelIndex, decoded.slot) := by
    rw [placeOf, decodes]
    rfl
  have run := registration_run consistent within decoded.slot since
  rw [registrationCell_of_active (by rw [holds]), holds] at run
  rw [← takes_registrationEvent consistent place since] at few
  -- the generations since do not come round to the one of the token
  have named := run.named_iff fun k positive' le =>
    iterate_nextCounter_ne positive narrow positive' (by omega)
  have left := left_registrationEvent consistent decodes since
  rw [left] at named
  have later := consistent_after consistent since
  generalize after (step s) n since = now at run named later ⊢
  have sameCount : now.channelCount = n.channelCount := later.count.trans consistent.count.symm
  have decodesNow : decodeSubscription token now.channelCount = some decoded := by
    rw [sameCount, decodes]
  have live : (registrationCell decoded.channelIndex decoded.slot now).holder.isSome = true ↔
      ((now.channels decoded.channelIndex).registrations decoded.slot).active = true := by
    cases hactive : ((now.channels decoded.channelIndex).registrations decoded.slot).active <;>
      simp [registrationCell, hactive]
  have held : ¬revoked s token (moves (step s) n since) →
      (now.channels decoded.channelIndex).registrations decoded.slot =
        { callback
          channelHandle := ⟨runtimeChannelId, decoded.slot, decoded.generation⟩
          generation := decoded.generation
          active := true } := by
    intro unrevoked
    rcases run.kept_or_left with ⟨-, same⟩ | ⟨gone, -⟩
    · have active := live.mp (by rw [same]; rfl)
      rw [registrationCell_of_active active] at same
      exact Option.some.inj (congrArg Cell.holder same)
    · exact absurd (left.mp gone) unrevoked
  refine ⟨decodesNow, (later.ids _).trans (consistent.ids _).symm, fun unrevoked =>
    ⟨held unrevoked, ?_⟩, fun ownerAllowed => ⟨fun ok => ?_, ?_⟩, fun ownerAllowed ok => ?_,
    fun ownerAllowed refused => ?_⟩
  · have step := later.inStep decoded.channelIndex decoded.slot
    have active := step.active
    have generation : ((now.channels decoded.channelIndex).channel.subscribers
      decoded.slot).generation = _ := step.generation
    rw [held unrevoked] at active generation
    have found := @findSubscriber_active _ _ _ _ runtimeChannelId active
    rwa [generation] at found
  · rcases unsubscribe_cases later token ownerAllowed with
      ⟨status, refused, heq⟩ | ⟨other, hother, stopped, quiet, owner, active, generation, -⟩
    · rw [heq] at ok
      exact absurd ok refused
    · obtain rfl := Option.some.inj (hother.symm.trans decodesNow)
      exact ⟨⟨owner, stopped, quiet⟩, named.mp ⟨generation, live.mpr active⟩⟩
  · rintro ⟨⟨rfl, stopped, quiet⟩, unrevoked⟩
    have holdsNow := held unrevoked
    exact unsubscribe_active later valid stopped quiet decodesNow
      (by rw [holdsNow]) (by rw [holdsNow])
  · rcases unsubscribe_cases later token ownerAllowed with
      ⟨status, refused, heq⟩ | ⟨other, hother, -, -, -, -, -, heq⟩
    · rw [heq] at ok
      exact absurd ok refused
    · obtain rfl := Option.some.inj (hother.symm.trans decodesNow)
      rw [heq]
  · rcases unsubscribe_cases later token ownerAllowed with
      ⟨status, -, heq⟩ | ⟨other, -, -, -, -, -, -, heq⟩
    · rw [heq]
    · rw [heq] at refused
      exact absurd rfl refused

/-- **A token after any calls**, its place having been taken fewer than 65535 times. -/
theorem token_honoured_after (consistent : Consistent s n) {id : SignalId} {callback : Option κ}
    {ownerAllowed : Bool} (issued : (n.subscribe s id callback ownerAllowed).2 = .ok token)
    (since : List (NotificationCall κ))
    (few : retaken s token (moves (step s)
      (n.subscribe s id callback ownerAllowed).1 since) < 65535) :
    ∃ decoded, TokenHonoured s token id callback decoded
      (revoked s token (moves (step s)
        (n.subscribe s id callback ownerAllowed).1 since))
      (after (step s)
        (n.subscribe s id callback ownerAllowed).1 since) := by
  have first : Consistent s (n.subscribe s id callback ownerAllowed).1 :=
    consistent_step consistent (.subscribe id callback ownerAllowed)
  rcases subscribe_cases consistent id callback ownerAllowed with
    ⟨status, heq⟩ | ⟨index, slot, valid, within, named, -, -, heq⟩
  · rw [heq] at issued
    cases issued
  rw [heq] at issued few first ⊢
  obtain rfl := Except.ok.inj issued
  have decodes := decode_encode within (Nat.lt_of_le_of_lt consistent.few (by decide)) slot
    (nextCounter_pos 16 ((n.channels index).registrations slot).generation)
    (nextCounter_lt (by decide) ((n.channels index).registrations slot).generation)
  have signal : ((n.setChannel index ((n.channels index).registered slot callback)).channels
      index).id = id := by
    rw [channels_setChannel, if_pos rfl]
    exact named
  refine ⟨_, signal ▸ tokenHonoured_of_held first valid decodes ?_ since few⟩
  rw [channels_setChannel, if_pos rfl]
  exact Function.update_self _ _ _

/-! ### Channels and providers -/

/-- **Subscription handles**: the handles of every channel and the tokens of every provider are
honoured after any calls, and a token decodes to what it was encoded from. Where the calls are
subscriptions and removals only, a channel stays at rest, so that its removals are not refused
for being busy. -/
theorem subscription_handles :
    (∀ (T κ : Type) [BEq T] (channelId : ℕ) (c : Channel T κ) (callback : Option κ)
      (handle : NotificationHandle) (since : List (Call T κ)),
      (c.subscribe channelId callback).2 = { status := .ok, value := some handle } →
      (resubscribed handle (trace (Channel.step channelId)
          (c.subscribe channelId callback).1 since) < 65535 →
        ∃ slot, Honoured channelId handle slot callback c.nextRegistrationOrder
          (removed handle (trace (Channel.step channelId)
            (c.subscribe channelId callback).1 since))
          (after (Channel.step channelId) (c.subscribe channelId callback).1 since)) ∧
      ((∀ call ∈ since, call.registers) →
        (after (Channel.step channelId) (c.subscribe channelId callback).1
          since).AtRest)) ∧
    (∀ (κ : Type) (tables : ProfileTables) (synchronizationWellFormed : Bool)
      (before since : List (NotificationCall κ)) (id : SignalId) (callback : Option κ)
      (ownerAllowed : Bool) (token : SignalSubscription),
      let s := ProfileState.create tables synchronizationWellFormed
      let n := after (step s) (initializeNotificationChannels κ s) before
      (n.subscribe s id callback ownerAllowed).2 = .ok token →
      retaken s token (moves (step s)
        (n.subscribe s id callback ownerAllowed).1 since) < 65535 →
      ∃ decoded, TokenHonoured s token id callback decoded
        (revoked s token (moves (step s)
          (n.subscribe s id callback ownerAllowed).1 since))
        (after (step s)
          (n.subscribe s id callback ownerAllowed).1 since)) ∧
    ∀ (channelIndex channelCount generation : ℕ) (slot : Slot), channelIndex < channelCount →
      channelCount ≤ kMaxNotifyBindings → 0 < generation → generation < 2 ^ 16 →
      decodeSubscription (encodeSubscription channelIndex slot generation) channelCount =
        some ⟨channelIndex, slot, generation⟩ := by
  refine ⟨fun T κ _ channelId c callback handle since issued =>
      ⟨fun few => ?_, fun registers => ?_⟩,
    fun κ tables synchronizationWellFormed before since id callback ownerAllowed token => ?_, ?_⟩
  · exact honoured_after channelId issued since few
  · refine atRest_after channelId ?_ since registers
    rcases subscribe_cases channelId c callback with ⟨status, refused, heq⟩ | ⟨slot, rest, -, heq⟩
    · rw [heq] at issued
      cases issued
    · rw [heq]
      exact rest
  · intro s n issued few
    exact token_honoured_after (consistent_after (consistent_initial _ _) before) issued since few
  · intro channelIndex channelCount generation slot within few positive narrow
    exact decode_encode within (Nat.lt_of_le_of_lt few (by decide)) slot positive narrow

/-- A profile with one signal, which notifies. -/
def doorProfile : ProfileState :=
  .create { catalog := [{ id := ⟨7⟩, key := [0x64], capabilities := { notify := true } }]
            freshnessPolicies := [{ id := ⟨7⟩ }] } true

/-- A stale handle is refused though its slot is taken again; a live token is accepted. -/
theorem subscription_handles_door :
    ((after (Channel.step 0) (({} : Channel Bool Unit).subscribe 0 (some ())).1
      [.unsubscribe ⟨0, 0, 1⟩, .subscribe (some ())]).unsubscribe 0 ⟨0, 0, 1⟩).2 ≠ .ok ∧
    (((initializeNotificationChannels Unit doorProfile).subscribe doorProfile ⟨7⟩ (some ())
      true).1.unsubscribe doorProfile (encodeSubscription 0 0 1) true).2 = .ok ∧
    decodeSubscription (encodeSubscription 16 1 65535) 17 = some ⟨16, ⟨1, by decide⟩, 65535⟩ := by
  refine ⟨?_, ?_, subscription_handles.2.2 16 17 65535 ⟨1, by decide⟩ (by decide) (by decide)
    (by decide) (by decide)⟩
  · obtain ⟨slot, honoured⟩ := (subscription_handles.1 Bool Unit 0 {} (some ()) ⟨0, 0, 1⟩
      [.unsubscribe ⟨0, 0, 1⟩, .subscribe (some ())] rfl).1 (by decide)
    exact fun ok => (honoured.succeeds.mp ok).2 (List.mem_cons_self)
  · obtain ⟨decoded, honoured⟩ := subscription_handles.2.1 Unit doorProfile.tables true [] []
      ⟨7⟩ (some ()) true (encodeSubscription 0 0 1) rfl (by decide)
    refine (honoured.succeeds true).mpr ⟨⟨rfl, rfl, rfl⟩, ?_⟩
    rintro ⟨move, hmove, -⟩
    cases hmove

end AccessoryController.ProfileRuntime
