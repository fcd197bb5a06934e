import AccessoryController.SignalNotification.Fairness

/-!
# What a channel owes its subscribers

A slot that holds a notice gets it. Dispatches neither lose nor repeat a notice: what they deliver
to a slot, followed by what the slot still holds, is what it held before. A publication meanwhile
only adds to the notice, so that a flag set in it is still set when the slot is served.

## Main definitions

* `noticesTo slot h`: the notices delivered to a slot in a run
* `Subscriber.Owed`: the slot holds a notice that tells of a loss and of a recovery
* `fullPass`: as many complete dispatches as a channel has slots

## Main results

* `notices_conserved`: dispatches conserve notices
* `owed_delivered`: the next notice of an owed slot tells of both
* `fullPass_serves`: a full pass serves every slot
* `publish_recovery`: a loss and a recovery published together are owed to every active slot
-/

namespace AccessoryController.SignalNotification

open VehicleCore

variable {T κ : Type}

/-- The notices delivered to a slot. -/
def noticesTo (slot : Slot) (h : List (Call T κ × Answer T κ)) : List (Notification T) :=
  h.filterMap fun event =>
    match event.2 with
    | .delivered d => if d.slot = slot then some d.notice else none
    | _ => none

/-- A slot that is to be told of a loss and of a recovery. -/
structure Subscriber.Owed (s : Subscriber T κ) : Prop where
  active : s.active = true
  pending : s.pending = true
  lost : s.pendingNotice.becameUnavailable = true
  regained : s.pendingNotice.recovered = true

/-- Calls of a dispatch. -/
def Call.dispatches : Call T κ → Bool
  | .dispatchOne | .callbackReturned => true
  | _ => false

/-- One complete dispatch for each slot. -/
def fullPass (T κ : Type) : List (Call T κ) :=
  [.dispatchOne, .callbackReturned, .dispatchOne, .callbackReturned]

theorem Call.dispatches_dispatchOne (T κ : Type) :
    (Call.dispatchOne : Call T κ).dispatches = true := rfl

/-! ### One dispatch -/

/-- A dispatch delivers nothing and changes nothing, or it delivers the notice of a pending slot. -/
theorem dispatchOne_cases (c : Channel T κ) :
    (∃ status, c.dispatchOne = (c, .error status)) ∨
      ∃ index, c.running = true ∧ c.nextPendingSubscriber = some index ∧
        c.isPending index = true ∧
        c.dispatchOne.1.subscribers =
          Function.update c.subscribers index (c.subscribers index).detach ∧
        c.dispatchOne.1.current = c.current ∧ c.dispatchOne.1.running = c.running ∧
        c.dispatchOne.2 =
          .ok ⟨index, (c.subscribers index).callback, (c.subscribers index).pendingNotice⟩ := by
  unfold Channel.dispatchOne
  split
  · exact .inl ⟨_, rfl⟩
  next run =>
  split
  · exact .inl ⟨_, rfl⟩
  split
  · exact .inl ⟨_, rfl⟩
  next index next =>
  exact .inr ⟨index, by simpa using run, next, isPending_nextPendingSubscriber next, rfl, rfl, rfl,
    rfl⟩

variable {call : Call T κ} {c : Channel T κ}

section Dispatches

variable [BEq T] (channelId : ℕ)

/-- One call of a dispatch conserves the notices of a slot. -/
theorem notices_step (c : Channel T κ) (dispatches : call.dispatches = true) (slot : Slot) :
    noticesTo slot [(call, (c.step channelId call).2)] ++
        ((c.step channelId call).1.subscribers slot).pendingNotice?.toList =
      (c.subscribers slot).pendingNotice?.toList := by
  cases call with
  | dispatchOne =>
    rcases dispatchOne_cases c with ⟨status, heq⟩ | ⟨index, -, -, pending, slots, -, -, told⟩
    · simp only [Channel.step, heq, Prod.map]
      rfl
    · have holds : (c.subscribers index).pending = true := (Bool.and_eq_true_iff.mp pending).2
      simp only [Channel.step, Prod.map, told, slots, id]
      by_cases same : index = slot
      · subst same
        simp [noticesTo, Subscriber.pendingNotice?, Subscriber.detach, holds]
      · simp [noticesTo, same, Function.update_of_ne (Ne.symm same)]
  | callbackReturned => rfl
  | _ => cases dispatches

/-- **Dispatches conserve notices**: what they deliver to a slot and what it then holds is what it
held before. -/
theorem notices_conserved (c : Channel T κ) {calls : List (Call T κ)}
    (dispatches : ∀ call ∈ calls, call.dispatches = true) (slot : Slot) :
    noticesTo slot (Machine.trace (Channel.step channelId) c calls) ++
        ((Machine.after (Channel.step channelId) c calls).subscribers slot).pendingNotice?.toList =
      (c.subscribers slot).pendingNotice?.toList := by
  induction calls generalizing c with
  | nil => rfl
  | cons call calls ih =>
    have first := notices_step channelId c (dispatches call List.mem_cons_self) slot
    have rest := ih (c.step channelId call).1 fun other mem =>
      dispatches other (List.mem_cons_of_mem _ mem)
    rw [show Machine.trace (Channel.step channelId) c (call :: calls) =
      [(call, (c.step channelId call).2)] ++
        Machine.trace (Channel.step channelId) (c.step channelId call).1 calls from rfl]
    unfold noticesTo at first rest ⊢
    rw [List.filterMap_append, List.append_assoc]
    exact (congrArg _ rest).trans first

/-- Dispatches change neither the reading of a channel nor whether it runs. -/
theorem dispatches_keep (c : Channel T κ) (dispatches : call.dispatches = true) :
    (c.step channelId call).1.current = c.current ∧
      (c.step channelId call).1.running = c.running := by
  cases call with
  | dispatchOne =>
    rcases dispatchOne_cases c with ⟨status, heq⟩ | ⟨index, -, -, -, -, current, running, -⟩
    · simp [Channel.step, heq]
    · exact ⟨current, running⟩
  | callbackReturned => exact ⟨rfl, rfl⟩
  | _ => cases dispatches

omit [BEq T] in
/-- A complete dispatch of a channel at rest leaves one slot less pending, if any is. -/
theorem dispatch_serves (running : c.running = true) (idle : c.callbackActive = false)
    (free : c.dispatching = false) :
    (∀ slot, c.isPending slot = false) ∧ c.dispatchOne.1.callbackReturned = c.callbackReturned ∨
      ∃ index, c.isPending index = true ∧ ∀ slot,
        c.dispatchOne.1.callbackReturned.isPending slot =
          (c.isPending slot && decide (slot ≠ index)) := by
  rcases dispatchOne_cases c with ⟨status, heq⟩ | ⟨index, -, -, pending, slots, -⟩
  · refine .inl ⟨fun slot => Bool.eq_false_iff.mpr fun pending => ?_, by rw [heq]⟩
    obtain ⟨index, next⟩ := nextPendingSubscriber_of_pending pending
    rw [Channel.dispatchOne, running, idle, free, next] at heq
    cases (Prod.mk.inj heq).2
  · refine .inr ⟨index, pending, fun slot => ?_⟩
    unfold Channel.isPending Channel.callbackReturned
    rw [slots]
    by_cases same : slot = index
    · subst same
      simp [Subscriber.detach]
    · simp [same]

/-- **A full pass serves every slot.** -/
theorem fullPass_serves (running : c.running = true) (idle : c.callbackActive = false)
    (free : c.dispatching = false) (slot : Slot) :
    (Machine.after (Channel.step channelId) c (fullPass T κ)).isPending slot = false := by
  show c.dispatchOne.1.callbackReturned.dispatchOne.1.callbackReturned.isPending slot = false
  have running' : c.dispatchOne.1.callbackReturned.running = true :=
    (dispatches_keep channelId c (Call.dispatches_dispatchOne T κ)).2.trans running
  rcases dispatch_serves running' rfl rfl with ⟨none_left, same⟩ | ⟨second, pending, later⟩
  · rw [same]
    exact none_left slot
  rcases dispatch_serves running idle free with ⟨none_left, same⟩ | ⟨first, -, now⟩
  · rw [same] at pending
    exact absurd ((none_left second).symm.trans pending) Bool.false_ne_true
  -- the two slots served are distinct, and there are no others
  rw [later, now]
  rw [now] at pending
  have apart : second ≠ first := by simpa using (Bool.and_eq_true_iff.mp pending).2
  have all : ∀ a b c : Slot, b ≠ a → c = a ∨ c = b := by decide
  rcases all first second slot apart with rfl | rfl <;> simp

end Dispatches

/-! ### Flags -/

theorem Subscriber.Owed.mergePending {s : Subscriber T κ} (owed : s.Owed)
    (update : Notification T) : (s.mergePending update).Owed := by
  refine ⟨(active_mergePending s update).trans owed.active, ?_, ?_, ?_⟩ <;>
    simp [Subscriber.mergePending, Notification.coalesce, owed.pending, owed.lost, owed.regained]

section Runs

variable [BEq T] (channelId : ℕ)

/-- A publication keeps an owed slot owed. -/
theorem owed_publish {slot : Slot} (owed : (c.subscribers slot).Owed) (reading : Reading T) :
    ((c.publish reading).1.subscribers slot).Owed := by
  unfold Channel.publish
  split
  · exact owed
  split
  · exact owed
  dsimp only
  rw [if_pos owed.active]
  exact owed.mergePending _

/-- A call on a running channel, a stop apart, delivers what is owed or leaves it owed. -/
theorem owed_step {slot : Slot} (running : c.running = true) (owed : (c.subscribers slot).Owed)
    (kept : call ≠ .stop) :
    (c.step channelId call).1.running = true ∧
      ((∃ notice, noticesTo slot [(call, (c.step channelId call).2)] = [notice] ∧
          notice.becameUnavailable = true ∧ notice.recovered = true) ∨
        noticesTo slot [(call, (c.step channelId call).2)] = [] ∧
          ((c.step channelId call).1.subscribers slot).Owed) := by
  cases call with
  | subscribe callback =>
    have refused : c.subscribe channelId callback = (c, { status := .invalidState }) := by
      unfold Channel.subscribe
      rw [running, Bool.or_true, if_pos rfl]
    simp only [Channel.step, refused, Prod.map, id]
    exact ⟨running, .inr ⟨rfl, owed⟩⟩
  | unsubscribe handle =>
    have refused : c.unsubscribe channelId handle = (c, .invalidState) := by
      unfold Channel.unsubscribe
      rw [running, Bool.or_true, if_pos rfl]
    simp only [Channel.step, refused, Prod.map, id]
    exact ⟨running, .inr ⟨rfl, owed⟩⟩
  | start =>
    have refused : c.start = (c, .alreadyRunning) := by
      unfold Channel.start
      rw [running, Bool.or_true, if_pos rfl]
    simp only [Channel.step, refused, Prod.map, id]
    exact ⟨running, .inr ⟨rfl, owed⟩⟩
  | stop => exact absurd rfl kept
  | publish reading =>
    refine ⟨?_, .inr ⟨rfl, owed_publish owed reading⟩⟩
    simp only [Channel.step, Channel.publish, Prod.map]
    split
    · exact running
    split <;> exact running
  | dispatchOne =>
    refine ⟨(dispatches_keep channelId c (Call.dispatches_dispatchOne T κ)).2.trans running, ?_⟩
    rcases dispatchOne_cases c with ⟨status, heq⟩ | ⟨index, -, -, -, slots, -, -, told⟩
    · simp only [Channel.step, heq, Prod.map]
      exact .inr ⟨rfl, owed⟩
    · simp only [Channel.step, Prod.map, told, slots, id]
      by_cases same : index = slot
      · subst same
        exact .inl ⟨_, by simp [noticesTo], owed.lost, owed.regained⟩
      · rw [Function.update_of_ne (Ne.symm same)]
        exact .inr ⟨by simp [noticesTo, same], owed⟩
  | callbackReturned => exact ⟨running, .inr ⟨rfl, owed⟩⟩

/-- **The next notice of an owed slot tells of both**, whatever is called before it comes. -/
theorem owed_delivered {slot : Slot} (running : c.running = true) (owed : (c.subscribers slot).Owed)
    {calls : List (Call T κ)} (kept : ∀ call ∈ calls, call ≠ .stop) {notice : Notification T}
    (next : (noticesTo slot (Machine.trace (Channel.step channelId) c calls)).head? =
      some notice) : notice.becameUnavailable = true ∧ notice.recovered = true := by
  induction calls generalizing c with
  | nil => cases next
  | cons call calls ih =>
    obtain ⟨running', step⟩ := owed_step channelId running owed (kept call List.mem_cons_self)
    rw [show Machine.trace (Channel.step channelId) c (call :: calls) =
      [(call, (c.step channelId call).2)] ++
        Machine.trace (Channel.step channelId) (c.step channelId call).1 calls from rfl] at next
    unfold noticesTo at next step ih
    rw [List.filterMap_append] at next
    rcases step with ⟨told, delivered, lost, regained⟩ | ⟨delivered, owed'⟩
    · rw [delivered] at next
      cases next
      exact ⟨lost, regained⟩
    · rw [delivered, List.nil_append] at next
      exact ih running' owed' (fun other mem => kept other (List.mem_cons_of_mem _ mem)) next

end Runs

/-! ### A loss and a recovery -/

/-- What a merge leaves in the notice of a slot. -/
theorem pendingNotice_mergePending (s : Subscriber T κ) (update : Notification T) :
    (s.mergePending update).pending = true ∧
      (s.mergePending update).pendingNotice.current = update.current ∧
      (update.becameUnavailable = true →
        (s.mergePending update).pendingNotice.becameUnavailable = true) ∧
      (update.recovered = true → (s.mergePending update).pendingNotice.recovered = true) ∧
      (s.pending = true → s.pendingNotice.becameUnavailable = true →
        (s.mergePending update).pendingNotice.becameUnavailable = true) := by
  unfold Subscriber.mergePending Notification.coalesce
  cases s.pending <;> simp +contextual

section Publications

variable [BEq T]

/-- What a publication of another reading leaves in a running channel. -/
theorem publish_other (running : c.running = true) (reading : Reading T)
    (other : sameReading c.current reading = false) : let c' := (c.publish reading).1
    c'.current = reading ∧ c'.running = true ∧
      c'.hasAvailablePeriod = (available reading || c.hasAvailablePeriod) ∧
      ∀ slot, (c.subscribers slot).active = true →
        c'.subscribers slot = (c.subscribers slot).mergePending
          { current := reading
            becameUnavailable := available c.current && !available reading
            recovered := !available c.current && available reading && c.hasAvailablePeriod } := by
  unfold Channel.publish
  rw [running, other]
  exact ⟨rfl, rfl, rfl, fun slot active => if_pos active⟩

theorem not_sameReading_of_available {a b : Reading T} (h : available a ≠ available b)
    (value : a.value.isSome = b.value.isSome) : sameReading a b = false := by
  refine Bool.eq_false_iff.mpr fun same => h ?_
  simp only [sameReading, Bool.and_eq_true, beq_iff_eq] at same
  rw [available, available, same.1.2, value]

/-- **A loss and a recovery published together are owed to every active slot**, and the notice
carries the reading that came back. -/
theorem publish_recovery (running : c.running = true) (shown : available c.current = true)
    (seen : c.hasAvailablePeriod = true) {reading : Reading T} (back : available reading = true) :
    let c' := ((c.publish { c.current with availability := .stale }).1.publish reading).1
    c'.running = true ∧ c'.current = reading ∧ ∀ slot, (c.subscribers slot).active = true →
      (c'.subscribers slot).Owed ∧ (c'.subscribers slot).pendingNotice.current = reading := by
  have stale : available { c.current with availability := Availability.stale } = false := by
    simp [available]
  have value : ∀ r : Reading T, available r = true → r.value.isSome = true := fun r h =>
    (Bool.and_eq_true_iff.mp h).1
  have lost := publish_other running { c.current with availability := .stale }
    (not_sameReading_of_available (by rw [shown, stale]; decide) rfl)
  generalize hlost : (c.publish { c.current with availability := .stale }).1 = gone at lost
  obtain ⟨current, run, period, slots⟩ := lost
  have regained := publish_other run reading (by
    rw [current]
    exact not_sameReading_of_available (by rw [stale, back]; decide)
      ((value _ shown).trans (value _ back).symm))
  obtain ⟨current', run', -, slots'⟩ := regained
  refine ⟨run', current', fun slot active => ?_⟩
  have first := slots slot active
  rw [shown, stale] at first
  have live : (gone.subscribers slot).active = true := by
    rw [first, active_mergePending]
    exact active
  have second := slots' slot live
  rw [current, stale, back, period, seen, Bool.or_true] at second
  obtain ⟨held, -, told, -⟩ := pendingNotice_mergePending (c.subscribers slot)
    { current := { c.current with availability := .stale }, becameUnavailable := true }
  obtain ⟨pending, carries, -, recovers, keeps⟩ := pendingNotice_mergePending
    (gone.subscribers slot) { current := reading, recovered := true }
  rw [first] at keeps pending carries recovers
  rw [second, first]
  exact ⟨⟨by rw [active_mergePending, active_mergePending]; exact active, pending,
    keeps held (told rfl), recovers rfl⟩, carries⟩

end Publications

end AccessoryController.SignalNotification
