import AccessoryController.Library.Mailbox
import AccessoryController.SignalNotification.Channel

/-!
# No final state is lost

Each slot of a running channel is a latest-state mailbox: a start seeds it, a publication posts
to it and a dispatch takes from it. Whatever the order of the calls, the last notice of an active
slot's history carries the channel's current reading, so a subscriber without a pending notice
has been told the current reading, and one with a pending notice is about to be.

## Main definitions

* `deliveredSinceStart slot h`: the notices delivered to a slot since the last start in `h`
* `slotMailbox c h slot`: a slot as a latest-state mailbox

## Main results

* `settled_step`: one call keeps every active slot of a running channel settled
* `no_final_state_lost`: after every run, every active slot has been or will be told the current
  reading, and its history since the start holds exactly one initial notice
-/

namespace AccessoryController.SignalNotification

open VehicleCore Channel Subscriber

variable {T κ : Type}

/-- The notices delivered to `slot` since the last start that succeeded. -/
def deliveredSinceStart (slot : Slot) (h : List (Call T κ × Answer T κ)) :
    List (Notification T) :=
  h.foldl (fun delivered event =>
    match event with
    | (.start, .status .ok) => []
    | (_, .delivered d) => if d.slot = slot then delivered ++ [d.notice] else delivered
    | _ => delivered) []

/-- The notice a slot holds, if it holds one. -/
def Subscriber.pendingNotice? (subscriber : Subscriber T κ) : Option (Notification T) :=
  if subscriber.pending then some subscriber.pendingNotice else none

/-- A slot as a latest-state mailbox. -/
def slotMailbox (c : Channel T κ) (h : List (Call T κ × Answer T κ)) (slot : Slot) :
    Mailbox (Notification T) :=
  ⟨deliveredSinceStart slot h, (c.subscribers slot).pendingNotice?⟩

/-- Every active slot of a running channel is told the current reading last, and is told one
initial notice first. -/
def Settled (c : Channel T κ) (h : List (Call T κ × Answer T κ)) : Prop :=
  c.running = true → ∀ slot, (c.subscribers slot).active = true →
    (slotMailbox c h slot).Latest Notification.current c.current ∧
      (slotMailbox c h slot).SeededOnce fun n => n.initial = true

/-! ### Slots under the channel's operations -/

/-- A merge is a post to the slot's mailbox. -/
theorem pendingNotice?_mergePending (s : Subscriber T κ) (update : Notification T) :
    (s.mergePending update).pendingNotice? =
      some (s.pendingNotice?.elim update fun n => n.coalesce s.pendingInitialSeed update) := by
  cases hp : s.pending <;> simp [mergePending, pendingNotice?, hp]

@[simp] theorem active_mergePending (s : Subscriber T κ) (update : Notification T) :
    (s.mergePending update).active = s.active := by
  unfold mergePending
  split <;> rfl

variable {c : Channel T κ} {h : List (Call T κ × Answer T κ)} (slot : Slot)

theorem oldestWhere_eligible {eligible : Slot → Bool} {index : Slot}
    (h : c.oldestWhere eligible = some index) : eligible index = true := by
  -- the accumulator of the scan is always an eligible slot
  refine List.foldlRecOn (motive := fun selected => ∀ i, selected = some i → eligible i = true)
    _ _ (by simp) ?_ index h
  intro selected ih candidate _ i hi
  split at hi
  · exact ih i hi
  · rename_i hc
    have hc : eligible candidate = true := by simpa using hc
    split at hi
    · cases hi; exact hc
    · split at hi
      · cases hi; exact hc
      · exact ih i hi

/-- A dispatch selects a pending slot. -/
theorem isPending_nextPendingSubscriber {index : Slot} (h : c.nextPendingSubscriber = some index) :
    c.isPending index = true := by
  unfold nextPendingSubscriber at h
  split at h
  · rename_i i hi
    cases h
    have := oldestWhere_eligible hi
    simp only [Bool.and_eq_true] at this
    exact this.1
  · exact oldestWhere_eligible h

/-! ### One call -/

theorem deliveredSinceStart_start (h : List (Call T κ × Answer T κ)) :
    deliveredSinceStart slot (h ++ [(.start, .status .ok)]) = [] := by
  simp [deliveredSinceStart]

theorem deliveredSinceStart_delivered (h : List (Call T κ × Answer T κ)) (call : Call T κ)
    (d : Delivery T κ) :
    deliveredSinceStart slot (h ++ [(call, .delivered d)]) =
      if d.slot = slot then deliveredSinceStart slot h ++ [d.notice]
      else deliveredSinceStart slot h := by
  cases call <;> simp [deliveredSinceStart]

/-- Nothing else is a delivery, and nothing else forgets one. -/
theorem deliveredSinceStart_status (h : List (Call T κ × Answer T κ)) {call : Call T κ}
    {status : NotificationStatus} (hstart : call = .start → status ≠ .ok) :
    deliveredSinceStart slot (h ++ [(call, .status status)]) = deliveredSinceStart slot h := by
  cases call with
  | start =>
    have hs : status ≠ .ok := hstart rfl
    cases status <;> simp_all [deliveredSinceStart]
  | _ => simp [deliveredSinceStart]

theorem deliveredSinceStart_subscription (h : List (Call T κ × Answer T κ)) (call : Call T κ)
    (result : NotificationSubscriptionResult) :
    deliveredSinceStart slot (h ++ [(call, .subscription result)]) =
      deliveredSinceStart slot h := by
  cases call <;> simp [deliveredSinceStart]

theorem Settled.of_stopped (stopped : c.running = false) : Settled c h := by
  intro running
  rw [stopped] at running
  cases running

section

variable (hs : Settled c h)
include hs

/-- A call that leaves the channel alone and delivers nothing leaves it settled. -/
theorem Settled.of_unchanged {event : Call T κ × Answer T κ}
    (same : ∀ slot, deliveredSinceStart slot (h ++ [event]) = deliveredSinceStart slot h) :
    Settled c (h ++ [event]) := by
  intro running slot active
  simpa only [slotMailbox, same] using hs running slot active

/-- A start seeds the mailbox of every active slot. -/
theorem settled_start : Settled c.start.1 (h ++ [(.start, .status c.start.2)]) := by
  unfold start
  split
  · exact hs.of_unchanged fun slot => deliveredSinceStart_status slot h fun _ => by simp
  · intro _ slot active
    have active : (c.subscribers slot).active = true := active
    have seeded : ((c.subscribers slot).seed).pendingNotice? =
        some { current := {}, initial := true } := by
      simp [pendingNotice?, seed, active]
    simp only [slotMailbox, deliveredSinceStart_start, seeded]
    exact ⟨Mailbox.latest_seed _ _, Mailbox.seededOnce_seed rfl⟩

theorem settled_stop : Settled c.stop.1 (h ++ [(.stop, .status c.stop.2)]) := by
  have same : ∀ slot, deliveredSinceStart slot (h ++ [(.stop, .status c.stop.2)]) =
      deliveredSinceStart slot h := fun slot => deliveredSinceStart_status slot h (by simp)
  unfold stop at same ⊢
  split
  · exact hs.of_unchanged (by simpa [*] using same)
  · split
    · exact hs.of_unchanged (by simpa [*] using same)
    · exact Settled.of_stopped rfl

/-- A publication that changes the reading posts it to the mailbox of every active slot. -/
theorem settled_publish [BEq T] (reading : Reading T) :
    Settled (c.publish reading).1
      (h ++ [(.publish reading, .status (c.publish reading).2)]) := by
  have same : ∀ slot status, deliveredSinceStart slot (h ++ [(.publish reading, .status status)]) =
      deliveredSinceStart slot h := fun slot status => deliveredSinceStart_status slot h (by simp)
  unfold publish
  split
  · exact hs.of_unchanged fun slot => same slot _
  rename_i hrun
  split
  · exact hs.of_unchanged fun slot => same slot _
  intro _ slot active
  have hactive : (c.subscribers slot).active = true := by
    by_contra hna
    simp [hna] at active
  obtain ⟨hlatest, hseed⟩ := hs (by simpa using hrun) slot hactive
  simp only [slotMailbox, same, if_pos hactive, pendingNotice?_mergePending]
  exact ⟨Mailbox.Latest.post (m := slotMailbox c h slot) rfl fun _ => rfl,
    hseed.post (by simp) fun _ => Iff.rfl⟩

/-- A dispatch takes from one mailbox. -/
theorem settled_dispatchOne [BEq T] {channelId : ℕ} :
    Settled (c.step channelId .dispatchOne).1
      (h ++ [(.dispatchOne, (c.step channelId .dispatchOne).2)]) := by
  have same : ∀ slot status, deliveredSinceStart slot (h ++ [(.dispatchOne, .status status)]) =
      deliveredSinceStart slot h := fun slot status => deliveredSinceStart_status slot h (by simp)
  simp only [step, dispatchOne]
  split
  · exact hs.of_unchanged fun slot => same slot _
  split
  · exact hs.of_unchanged fun slot => same slot _
  split
  · exact hs.of_unchanged fun slot => same slot _
  rename_i index hnext
  have hpending : (c.subscribers index).pending = true := by
    have := isPending_nextPendingSubscriber hnext
    simp only [isPending, Bool.and_eq_true] at this
    exact this.2
  intro running slot active
  by_cases hslot : index = slot
  · subst hslot
    have hactive : (c.subscribers index).active = true := by
      simpa [Prod.map, detach] using active
    obtain ⟨hlatest, hseed⟩ := hs (by simpa [Prod.map] using running) index hactive
    have hhist : (slotMailbox c h index).history =
        deliveredSinceStart index h ++ [(c.subscribers index).pendingNotice] := by
      simp [Mailbox.history, slotMailbox, pendingNotice?, hpending]
    simp only [Mailbox.Latest, Mailbox.SeededOnce, hhist] at hlatest hseed
    simpa [Prod.map, slotMailbox, deliveredSinceStart_delivered, pendingNotice?,
      detach, Mailbox.Latest, Mailbox.SeededOnce, Mailbox.history]
      using And.intro hlatest hseed
  · have hactive : (c.subscribers slot).active = true := by
      simpa [Prod.map, Function.update_of_ne (Ne.symm hslot)] using active
    have := hs (by simpa [Prod.map] using running) slot hactive
    simpa [Prod.map, slotMailbox, deliveredSinceStart_delivered, hslot,
      Function.update_of_ne (Ne.symm hslot)] using this

end

/-- **One call** keeps every active slot of a running channel settled. -/
theorem settled_step [BEq T] (channelId : ℕ) (c : Channel T κ) (h : List (Call T κ × Answer T κ))
    (call : Call T κ) (hs : Settled c h) :
    Settled (c.step channelId call).1 (h ++ [(call, (c.step channelId call).2)]) := by
  cases call with
  | subscribe callback =>
    have same := fun slot result =>
      deliveredSinceStart_subscription slot h (.subscribe callback) result
    simp only [step, subscribe]
    split
    · exact hs.of_unchanged fun slot => same slot _
    rename_i hrun
    have stopped : c.running = false := by simp_all
    split
    · exact hs.of_unchanged fun slot => same slot _
    split
    · exact hs.of_unchanged fun slot => same slot _
    · exact Settled.of_stopped stopped
  | unsubscribe handle =>
    have same : ∀ slot status,
        deliveredSinceStart slot (h ++ [(.unsubscribe handle, .status status)]) =
          deliveredSinceStart slot h :=
      fun slot status => deliveredSinceStart_status slot h (by simp)
    simp only [step, unsubscribe]
    split
    · exact hs.of_unchanged fun slot => same slot _
    rename_i hrun
    have stopped : c.running = false := by simp_all
    split
    · exact hs.of_unchanged fun slot => same slot _
    · exact Settled.of_stopped stopped
  | start => exact settled_start hs
  | stop => exact settled_stop hs
  | publish reading => exact settled_publish hs reading
  | dispatchOne => exact settled_dispatchOne hs
  | callbackReturned =>
    exact Settled.of_unchanged (c := c.callbackReturned) hs
      fun slot => deliveredSinceStart_status slot h (by simp)

/-! ### Every run -/

/-- **No final state is lost.** After every run of calls from a fresh channel, in any order and
with any calls between the two halves of a dispatch, every active slot of a running channel
either holds a pending notice that carries the channel's current reading, or holds none and the
last notice delivered to it since the start carried it; and the notices delivered since the start
together with the pending one begin with an initial notice and hold no other. -/
theorem no_final_state_lost [BEq T] (channelId : ℕ) (calls : List (Call T κ)) :
    let c := Machine.after (step channelId) ({} : Channel T κ) calls
    let h := Machine.trace (step channelId) ({} : Channel T κ) calls
    c.running = true → ∀ slot, (c.subscribers slot).active = true →
      ((c.subscribers slot).pending = false →
        ∃ n, (deliveredSinceStart slot h).getLast? = some n ∧ n.current = c.current) ∧
      ((c.subscribers slot).pending = true →
        (c.subscribers slot).pendingNotice.current = c.current) ∧
      ∃ first rest, deliveredSinceStart slot h ++ (c.subscribers slot).pendingNotice?.toList =
          first :: rest ∧ first.initial = true ∧ ∀ n ∈ rest, n.initial = false := by
  intro c h running slot active
  have settled : Settled c h := Machine.invariant (P := Settled) (Settled.of_stopped rfl)
    (fun c h call => settled_step channelId c h call) calls
  obtain ⟨hlatest, first, rest, hist, hfirst, hrest⟩ := settled running slot active
  refine ⟨fun hp => ?_, fun hp => ?_, first, rest, hist, hfirst, fun n hn => by
    simpa using hrest n hn⟩
  · exact hlatest.taken (by simp [slotMailbox, pendingNotice?, hp])
  · exact hlatest.pending (by simp [slotMailbox, pendingNotice?, hp])

end AccessoryController.SignalNotification
