import AccessoryController.Library.Generations
import AccessoryController.SignalNotification.Channel

/-!
# Handles of a channel

A handle is the slot of a registration with the generation the slot had then. The generations of
a slot are 16 bits wide and skip zero, so a handle names its own registration until that is
removed, and nothing afterwards, for as long as the slot was taken fewer than 65535 times since.

## Main definitions

* `slotCell slot c`: a slot as a place with generations
* `removed handle h`, `resubscribed handle h`: whether a handle was removed in a history, and how
  often its slot was taken
* `Honoured`: what a handle does in a state

## Main results

* `iterate_nextCounter_ne`: a counter does not come round early
* `slot_run`: the run of a slot
* `honoured_after`: a handle after any calls
-/

namespace AccessoryController.SignalNotification

open VehicleCore Generations Channel

variable {T κ : Type}

/-! ### The counters -/

/-- A counter runs through the nonzero words of its width. -/
theorem iterate_nextCounter {width g : ℕ} (positive : 0 < g) (bounded : g < 2 ^ width) (n : ℕ) :
    Nat.iterate (nextCounter width) n g = (g - 1 + n) % (2 ^ width - 1) + 1 := by
  induction n with
  | zero => rw [Function.iterate_zero_apply, Nat.add_zero, Nat.mod_eq_of_lt (by omega)]; omega
  | succ n ih =>
    rw [Function.iterate_succ_apply', ih, ← Nat.add_assoc, Nat.add_mod (g - 1 + n) 1]
    have small : (g - 1 + n) % (2 ^ width - 1) < 2 ^ width - 1 := Nat.mod_lt _ (by omega)
    generalize (g - 1 + n) % (2 ^ width - 1) = r at small ⊢
    unfold nextCounter
    by_cases last : r + 1 + 1 = 2 ^ width
    · -- the largest word is followed by one
      have wraps : (r + 1 % (2 ^ width - 1)) % (2 ^ width - 1) = 0 := by
        rw [Nat.add_mod_mod, show r + 1 = 2 ^ width - 1 by omega, Nat.mod_self]
      rw [last, Nat.mod_self, if_pos rfl, wraps]
    · rw [Nat.mod_eq_of_lt (a := r + 1 + 1) (by omega), if_neg (by omega), Nat.add_mod_mod,
        Nat.mod_eq_of_lt (by omega)]

/-- **A counter does not come round early.** -/
theorem iterate_nextCounter_ne {width g n : ℕ} (positive : 0 < g) (bounded : g < 2 ^ width)
    (some_steps : 0 < n) (few : n < 2 ^ width - 1) : Nat.iterate (nextCounter width) n g ≠ g := by
  rw [iterate_nextCounter positive bounded]
  intro same
  by_cases round : g - 1 + n < 2 ^ width - 1
  · rw [Nat.mod_eq_of_lt round] at same
    omega
  · rw [Nat.mod_eq_sub_mod (by omega), Nat.mod_eq_of_lt (by omega)] at same
    omega

theorem nextCounter_pos (width n : ℕ) : 0 < nextCounter width n := by
  unfold nextCounter
  split <;> omega

theorem nextCounter_lt {width : ℕ} (positive : 0 < width) (n : ℕ) :
    nextCounter width n < 2 ^ width := by
  unfold nextCounter
  split
  · exact Nat.one_lt_two_pow (Nat.ne_of_gt positive)
  · exact Nat.mod_lt _ (Nat.two_pow_pos width)

/-! ### Registrations -/

namespace Channel

/-- No callback is in progress and the channel is stopped: registrations may change. -/
def AtRest (c : Channel T κ) : Prop := c.callbackActive = false ∧ c.running = false

/-- A registration at a slot. -/
def register (c : Channel T κ) (slot : Slot) (callback : Option κ) : Channel T κ :=
  { c with
    subscribers := Function.update c.subscribers slot
      { callback
        generation := nextCounter 16 (c.subscribers slot).generation
        registrationOrder := c.nextRegistrationOrder
        active := true }
    nextRegistrationOrder := nextCounter 64 c.nextRegistrationOrder }

/-- The removal of the registration at a slot. -/
def release (c : Channel T κ) (slot : Slot) : Channel T κ :=
  { c with
    subscribers := Function.update c.subscribers slot
      { generation := (c.subscribers slot).generation } }

end Channel

variable {c : Channel T κ} {slot : Slot} (channelId : ℕ)

/-- What a subscription does where the first inactive slot is known. -/
theorem subscribe_of_find {channelId : ℕ} {f : κ} (rest : c.AtRest)
    (free : (List.finRange kNotificationSubscribersPerChannel).find?
      (fun index => !(c.subscribers index).active) = some slot) :
    c.subscribe channelId (some f) = (c.register slot (some f),
      { status := .ok
        value := some ⟨channelId, slot, nextCounter 16 (c.subscribers slot).generation⟩ }) := by
  unfold subscribe
  rw [if_neg (by simp [rest.1, rest.2]), if_neg (by simp), free]
  rfl

/-- A subscription is refused, or it takes an inactive slot of a channel at rest. -/
theorem subscribe_cases (c : Channel T κ) (callback : Option κ) :
    (∃ status, status ≠ .ok ∧ c.subscribe channelId callback = (c, { status })) ∨
      ∃ slot : Slot, c.AtRest ∧ (c.subscribers slot).active = false ∧
        c.subscribe channelId callback = (c.register slot callback,
          { status := .ok
            value := some ⟨channelId, slot, nextCounter 16 (c.subscribers slot).generation⟩ }) := by
  unfold subscribe
  split
  · exact Or.inl ⟨_, by decide, rfl⟩
  rename_i rest
  split
  · exact Or.inl ⟨_, by decide, rfl⟩
  split
  · exact Or.inl ⟨_, by decide, rfl⟩
  · rename_i slot free
    refine Or.inr ⟨slot, by simpa [AtRest] using rest, ?_, rfl⟩
    simpa using List.find?_some free

/-- The handle of an active slot is found. -/
theorem findSubscriber_active {channelId : ℕ} (active : (c.subscribers slot).active = true) :
    c.findSubscriber channelId ⟨channelId, slot, (c.subscribers slot).generation⟩ = some slot := by
  unfold findSubscriber
  rw [dif_pos ⟨rfl, slot.isLt⟩]
  simp [active]

/-- A handle that is found names an active slot by its generation. -/
theorem eq_of_findSubscriber {channelId : ℕ} {handle : NotificationHandle}
    (found : c.findSubscriber channelId handle = some slot) :
    handle = ⟨channelId, slot, (c.subscribers slot).generation⟩ ∧
      (c.subscribers slot).active = true := by
  unfold findSubscriber at found
  split at found
  · rename_i bound
    dsimp only at found
    split at found
    · rename_i live
      obtain rfl := Option.some.inj found
      obtain ⟨active, generation⟩ := Bool.and_eq_true_iff.mp live
      obtain ⟨channel, place, stamp⟩ := handle
      obtain rfl : channel = channelId := bound.1
      have same : _ = stamp := beq_iff_eq.mp generation
      exact ⟨by rw [same], active⟩
    · cases found
  · cases found

theorem unsubscribe_active {channelId : ℕ} (rest : c.AtRest)
    (active : (c.subscribers slot).active = true) :
    c.unsubscribe channelId ⟨channelId, slot, (c.subscribers slot).generation⟩ =
      (c.release slot, .ok) := by
  unfold unsubscribe
  rw [if_neg (by simp [rest.1, rest.2]), findSubscriber_active active]
  rfl

/-- A removal is refused, or its handle names an active slot of a channel at rest. -/
theorem unsubscribe_cases (c : Channel T κ) (handle : NotificationHandle) :
    (∃ status, status ≠ .ok ∧ c.unsubscribe channelId handle = (c, status)) ∨
      ∃ slot : Slot, c.AtRest ∧ (c.subscribers slot).active = true ∧
        handle = ⟨channelId, slot, (c.subscribers slot).generation⟩ ∧
        c.unsubscribe channelId handle = (c.release slot, .ok) := by
  unfold unsubscribe
  split
  · exact Or.inl ⟨_, by decide, rfl⟩
  rename_i rest
  split
  · exact Or.inl ⟨_, by decide, rfl⟩
  · rename_i slot found
    obtain ⟨same, active⟩ := eq_of_findSubscriber found
    exact Or.inr ⟨slot, by simpa [AtRest] using rest, active, same, rfl⟩

/-! ### Slots as places -/

/-- A slot as a place; its holder is the callback with the order of its registration. -/
def slotCell (slot : Slot) (c : Channel T κ) : Cell (Option κ × ℕ) where
  generation := (c.subscribers slot).generation
  holder :=
    if (c.subscribers slot).active then
      some ((c.subscribers slot).callback, (c.subscribers slot).registrationOrder)
    else none

/-- A slot is the same place where its registration is. -/
theorem slotCell_congr {c' : Channel T κ}
    (generation : (c'.subscribers slot).generation = (c.subscribers slot).generation)
    (active : (c'.subscribers slot).active = (c.subscribers slot).active)
    (callback : (c'.subscribers slot).callback = (c.subscribers slot).callback)
    (order : (c'.subscribers slot).registrationOrder = (c.subscribers slot).registrationOrder) :
    slotCell slot c' = slotCell slot c := by
  simp only [slotCell, generation, active, callback, order]

/-- What a call did to a slot, by its answer. -/
def slotEvent (channelId : ℕ) (slot : Slot) : Call T κ × Answer T κ → Event
  | (.subscribe _, .subscription result) =>
    if result.status = .ok ∧ ∃ handle ∈ result.value, handle.slot = slot then .taken else .kept
  | (.unsubscribe handle, .status status) =>
    if status = .ok ∧ handle.channel = channelId ∧ handle.slot = slot then
      .freed handle.generation
    else .kept
  | _ => .kept

theorem slotCell_start (slot : Slot) (c : Channel T κ) :
    slotCell slot c.start.1 = slotCell slot c := by
  unfold start
  split
  · rfl
  · exact slotCell_congr rfl rfl rfl rfl

theorem slotCell_stop (slot : Slot) (c : Channel T κ) :
    slotCell slot c.stop.1 = slotCell slot c := by
  unfold stop
  split
  · rfl
  split
  · rfl
  · exact slotCell_congr rfl rfl rfl rfl

theorem slotCell_publish [BEq T] (slot : Slot) (c : Channel T κ) (reading : Reading T) :
    slotCell slot (c.publish reading).1 = slotCell slot c := by
  unfold publish
  split
  · rfl
  split
  · rfl
  · -- a merge touches the pending notice only
    apply slotCell_congr <;> dsimp only <;> split <;>
      first | rfl | (unfold Subscriber.mergePending; split <;> rfl)

theorem slotCell_dispatchOne (slot : Slot) (c : Channel T κ) :
    slotCell slot c.dispatchOne.1 = slotCell slot c := by
  unfold dispatchOne
  split
  · rfl
  split
  · rfl
  split
  · rfl
  · rename_i index _
    by_cases same : slot = index
    · subst same
      apply slotCell_congr <;> simp [Subscriber.detach]
    · apply slotCell_congr <;> simp [Function.update_of_ne same]

/-! ### One call -/

theorem slotCell_of_inactive (inactive : (c.subscribers slot).active = false) :
    slotCell slot c = ⟨(c.subscribers slot).generation, none⟩ := by
  simp [slotCell, inactive]

theorem slotCell_of_active (active : (c.subscribers slot).active = true) :
    slotCell slot c = ⟨(c.subscribers slot).generation,
      some ((c.subscribers slot).callback, (c.subscribers slot).registrationOrder)⟩ := by
  simp [slotCell, active]

theorem slotCell_register (c : Channel T κ) (slot : Slot) (callback : Option κ) :
    slotCell slot (c.register slot callback) =
      ⟨nextCounter 16 (c.subscribers slot).generation,
        some (callback, c.nextRegistrationOrder)⟩ := by
  simp [slotCell, register]

theorem slotCell_release (c : Channel T κ) (slot : Slot) :
    slotCell slot (c.release slot) = ⟨(c.subscribers slot).generation, none⟩ := by
  simp [slotCell, release]

theorem slotCell_register_of_ne {other : Slot} (distinct : other ≠ slot) (c : Channel T κ)
    (callback : Option κ) : slotCell other (c.register slot callback) = slotCell other c := by
  simp [slotCell, register, Function.update_of_ne distinct]

theorem slotCell_release_of_ne {other : Slot} (distinct : other ≠ slot) (c : Channel T κ) :
    slotCell other (c.release slot) = slotCell other c := by
  simp [slotCell, release, Function.update_of_ne distinct]

/-- **One call does to a slot what its answer says.** -/
theorem slot_step [BEq T] (slot : Slot) (c : Channel T κ) (call : Call T κ) :
    Step (nextCounter 16) (slotCell slot c)
      (slotEvent channelId slot (call, (c.step channelId call).2))
      (slotCell slot (c.step channelId call).1) := by
  cases call with
  | subscribe callback =>
    simp only [step, Prod.map_fst, Prod.map_snd, id_eq]
    rcases subscribe_cases channelId c callback with ⟨status, refused, heq⟩ |
      ⟨taken, -, inactive, heq⟩
    · rw [heq]
      simp only [slotEvent, refused, false_and, if_false]
      exact Step.kept _
    · rw [heq]
      by_cases same : taken = slot
      · subst same
        rw [slotCell_of_inactive inactive, slotCell_register]
        simp only [slotEvent, Option.mem_some_iff, exists_eq_left', and_self, if_true]
        exact Step.taken _ _
      · rw [slotCell_register_of_ne (Ne.symm same)]
        simp only [slotEvent, Option.mem_some_iff, exists_eq_left', Fin.val_inj, same, and_false,
          if_false]
        exact Step.kept _
  | unsubscribe handle =>
    simp only [step, Prod.map_fst, Prod.map_snd, id_eq]
    rcases unsubscribe_cases channelId c handle with ⟨status, refused, heq⟩ |
      ⟨freed, -, active, rfl, heq⟩
    · rw [heq]
      simp only [slotEvent, refused, false_and, if_false]
      exact Step.kept _
    · rw [heq]
      by_cases same : freed = slot
      · subst same
        rw [slotCell_of_active active, slotCell_release]
        simp only [slotEvent, and_self, if_true]
        exact Step.freed _ _
      · rw [slotCell_release_of_ne (Ne.symm same)]
        simp only [slotEvent, Fin.val_inj, same, and_false, if_false]
        exact Step.kept _
  | start => exact (slotCell_start slot c).symm ▸ Step.kept _
  | stop => exact (slotCell_stop slot c).symm ▸ Step.kept _
  | publish reading => exact (slotCell_publish slot c reading).symm ▸ Step.kept _
  | dispatchOne => exact (slotCell_dispatchOne slot c).symm ▸ Step.kept _
  | callbackReturned => exact Step.kept _

/-! ### Every run -/

/-- The handle was removed by a call of the history. -/
def removed (handle : NotificationHandle) (h : List (Call T κ × Answer T κ)) : Prop :=
  (.unsubscribe handle, .status .ok) ∈ h

/-- How often the slot of the handle was taken in the history. -/
def resubscribed (handle : NotificationHandle) (h : List (Call T κ × Answer T κ)) : ℕ :=
  h.countP fun
    | (.subscribe _, .subscription result) =>
      result.status == .ok && result.value.any fun issued => issued.slot == handle.slot
    | _ => false

/-- A slot runs as a place. -/
theorem slot_run [BEq T] (slot : Slot) (c : Channel T κ) (calls : List (Call T κ)) :
    Run (nextCounter 16) (slotCell slot c)
      ((Machine.trace (step channelId) c calls).map (slotEvent channelId slot))
      (slotCell slot (Machine.after (step channelId) c calls)) := by
  rw [Machine.trace_eq_map_moves, List.map_map]
  exact run_of_moves (fun _ => True) (fun _ _ _ => trivial)
    (fun c call _ => slot_step channelId slot c call) calls trivial

theorem takes_slotEvent (slot : Slot) (handle : NotificationHandle) (named : handle.slot = slot)
    (h : List (Call T κ × Answer T κ)) :
    takes (h.map (slotEvent channelId slot)) = resubscribed handle h := by
  rw [takes, List.countP_map, resubscribed]
  refine List.countP_congr fun move _ => ?_
  obtain ⟨call, answer⟩ := move
  cases call <;> cases answer <;> simp [slotEvent, named, Option.any_eq_true]
  split <;> simp

/-- The holder of a slot is sent away where its handle is removed. -/
theorem left_slotEvent {channelId : ℕ} {generation : ℕ} {h : List (Call T κ × Answer T κ)} :
    Left generation (h.map (slotEvent channelId slot)) ↔
      removed ⟨channelId, slot, generation⟩ h := by
  have uncleared : .cleared ∉ h.map (slotEvent channelId slot) := by
    rintro hmem
    obtain ⟨⟨call, answer⟩, -, hevent⟩ := List.mem_map.mp hmem
    cases call <;> cases answer <;> simp only [slotEvent] at hevent <;>
      first | cases hevent | (split at hevent <;> cases hevent)
  rw [Left, or_iff_left uncleared, removed, List.mem_map]
  constructor
  · rintro ⟨⟨call, answer⟩, hmem, hevent⟩
    cases call with
    | unsubscribe handle =>
      cases answer with
      | status status =>
        simp only [slotEvent] at hevent
        split at hevent
        · rename_i named
          obtain ⟨channel, place, stamp⟩ := handle
          obtain ⟨rfl, rfl, rfl⟩ := named
          rwa [← Event.freed.inj hevent]
        · cases hevent
      | _ => cases hevent
    | subscribe callback =>
      cases answer with
      | subscription result =>
        simp only [slotEvent] at hevent
        split at hevent <;> cases hevent
      | _ => cases hevent
    | _ => cases hevent
  · exact fun hmem => ⟨_, hmem, by simp [slotEvent]⟩

/-- What the handle of a registration does in a later state. It names the registration until that
is removed; its removal succeeds at rest until then, and vacates the slot and nothing else. -/
structure Honoured (channelId : ℕ) (handle : NotificationHandle) (slot : Slot)
    (callback : Option κ) (order : ℕ) (removed : Prop) (now : Channel T κ) : Prop where
  names : handle.channel = channelId ∧ handle.slot = slot
  held : ¬removed → (now.subscribers slot).active = true ∧
    (now.subscribers slot).callback = callback ∧ (now.subscribers slot).registrationOrder = order
  succeeds : (now.unsubscribe channelId handle).2 = .ok ↔ now.AtRest ∧ ¬removed
  releases : (now.unsubscribe channelId handle).2 = .ok →
    (now.unsubscribe channelId handle).1 = now.release slot
  refused : (now.unsubscribe channelId handle).2 ≠ .ok →
    (now.unsubscribe channelId handle).1 = now

/-- **A handle after any calls**, its slot having been taken fewer than 65535 times. -/
theorem honoured_after [BEq T] {callback : Option κ} {handle : NotificationHandle}
    (issued : (c.subscribe channelId callback).2 = { status := .ok, value := some handle })
    (since : List (Call T κ)) (few : resubscribed handle (Machine.trace (step channelId)
      (c.subscribe channelId callback).1 since) < 65535) :
    ∃ slot, Honoured channelId handle slot callback c.nextRegistrationOrder
      (removed handle (Machine.trace (step channelId)
        (c.subscribe channelId callback).1 since))
      (Machine.after (step channelId) (c.subscribe channelId callback).1 since) := by
  rcases subscribe_cases channelId c callback with ⟨status, refused, heq⟩ | ⟨slot, -, -, heq⟩
  · rw [heq] at issued
    cases issued
  rw [heq] at issued few ⊢
  obtain rfl := Option.some.inj (congrArg NotificationSubscriptionResult.value issued)
  have run := slot_run channelId slot (c.register slot callback) since
  rw [slotCell_register] at run
  generalize Machine.after (step channelId) (c.register slot callback) since = now at run ⊢
  generalize Machine.trace (step channelId) (c.register slot callback) since = h
    at run few ⊢
  rw [← takes_slotEvent channelId slot _ rfl] at few
  -- the generations since do not come round to the one of the handle
  have named := run.named_iff fun n positive le => iterate_nextCounter_ne
    (nextCounter_pos 16 _) (nextCounter_lt (by decide) _) positive (by omega)
  rw [left_slotEvent] at named
  have live : ∀ {active : Bool}, (now.subscribers slot).active = active →
      ((slotCell slot now).holder.isSome = true ↔ active = true) := by
    rintro active rfl
    cases hactive : (now.subscribers slot).active <;> simp [slotCell, hactive]
  refine ⟨slot, ⟨rfl, rfl⟩, fun unremoved => ?_, ⟨fun ok => ?_, ?_⟩, fun ok => ?_,
    fun refused => ?_⟩
  · rcases run.kept_or_left with ⟨-, same⟩ | ⟨gone, -⟩
    · have active := (live rfl).mp (by rw [same]; rfl)
      rw [slotCell_of_active active] at same
      have holder := Option.some.inj (congrArg Cell.holder same)
      exact ⟨active, congrArg Prod.fst holder, congrArg Prod.snd holder⟩
    · exact absurd (left_slotEvent.mp gone) unremoved
  · rcases unsubscribe_cases channelId now ⟨channelId, slot, _⟩ with ⟨status, refused, heq⟩ |
      ⟨freed, rest, active, same, -⟩
    · rw [heq] at ok
      exact absurd ok refused
    · obtain rfl : slot = freed := Fin.ext (congrArg NotificationHandle.slot same)
      exact ⟨rest, named.mp ⟨(congrArg NotificationHandle.generation same).symm,
        (live active).mpr rfl⟩⟩
  · rintro ⟨rest, unremoved⟩
    obtain ⟨same, held⟩ := named.mpr unremoved
    rw [← show (now.subscribers slot).generation = _ from same,
      unsubscribe_active rest ((live rfl).mp held)]
  · rcases unsubscribe_cases channelId now ⟨channelId, slot, _⟩ with ⟨status, refused, heq⟩ |
      ⟨freed, -, -, same, heq⟩
    · rw [heq] at ok
      exact absurd ok refused
    · obtain rfl : slot = freed := Fin.ext (congrArg NotificationHandle.slot same)
      rw [heq]
  · rcases unsubscribe_cases channelId now ⟨channelId, slot, _⟩ with ⟨status, -, heq⟩ |
      ⟨freed, -, -, same, heq⟩
    · rw [heq]
    · rw [heq] at refused
      exact absurd rfl refused

/-! ### Rest -/

/-- The call subscribes or unsubscribes. -/
def Call.registers : Call T κ → Prop
  | .subscribe _ | .unsubscribe _ => True
  | _ => False

/-- Registrations leave a channel at rest. -/
theorem atRest_after [BEq T] (rest : c.AtRest) (calls : List (Call T κ))
    (registers : ∀ call ∈ calls, call.registers) :
    (Machine.after (step channelId) c calls).AtRest := by
  induction calls generalizing c with
  | nil => exact rest
  | cons call calls ih =>
    refine ih ?_ fun later hlater => registers later (List.mem_cons_of_mem _ hlater)
    cases call with
    | subscribe callback =>
      rcases subscribe_cases channelId c callback with ⟨_, -, heq⟩ | ⟨_, -, -, heq⟩ <;>
        (simp only [step, heq]; exact rest)
    | unsubscribe handle =>
      rcases unsubscribe_cases channelId c handle with ⟨_, -, heq⟩ | ⟨_, -, -, -, heq⟩ <;>
        (simp only [step, heq]; exact rest)
    | start => exact absurd (registers .start List.mem_cons_self) id
    | stop => exact absurd (registers .stop List.mem_cons_self) id
    | publish reading => exact absurd (registers (.publish reading) List.mem_cons_self) id
    | dispatchOne => exact absurd (registers .dispatchOne List.mem_cons_self) id
    | callbackReturned => exact absurd (registers .callbackReturned List.mem_cons_self) id

end AccessoryController.SignalNotification
