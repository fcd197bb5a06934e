import AccessoryController.Library.Rotation
import AccessoryController.SignalNotification.Delivery

/-!
# Dispatches are fair

A dispatch goes round the pending slots by their registration orders, so a slot that holds a
notice waits for each of the others once at most. The orders come from a 64-bit counter, and are
distinct until it has wrapped around to the order of a slot that is still active.

## Main definitions

* `OrdersDistinct c`: the active slots have registration orders of their own
* `served h`: the slots of the deliveries in a history
* `activeSlots c`: the active slots

## Main results

* `pick_nextPendingSubscriber`: a dispatch is a service of the rotation
* `SlotWaits.run`: the deliveries of a run while a slot waits
* `dispatch_fair`: no slot is served twice while another one waits
* `wrapped_order_starves`: with equal orders a slot can be
-/

namespace AccessoryController.SignalNotification

open VehicleCore Machine

variable {T κ : Type}

/-- The registration order of a slot. -/
def Channel.orderOf (c : Channel T κ) (slot : Slot) : ℕ := (c.subscribers slot).registrationOrder

/-- The active slots have registration orders of their own. -/
def OrdersDistinct (c : Channel T κ) : Prop :=
  ∀ i j, (c.subscribers i).active = true → (c.subscribers j).active = true →
    c.orderOf i = c.orderOf j → i = j

/-- The slots of the deliveries, in order. -/
def served (h : List (Call T κ × Answer T κ)) : List Slot :=
  h.filterMap fun
    | (_, .delivered d) => some d.slot
    | _ => none

def activeSlots (c : Channel T κ) : List Slot :=
  (List.finRange kNotificationSubscribersPerChannel).filter fun slot => (c.subscribers slot).active

/-! ### The choice of a dispatch -/

/-- What the scan keeps when it passes a slot. -/
def Channel.older (c : Channel T κ) (eligible : Slot → Bool) (selected : Option Slot)
    (index : Slot) : Option Slot :=
  if !eligible index then selected
  else
    match selected with
    | none => some index
    | some best =>
      if (c.subscribers index).registrationOrder < (c.subscribers best).registrationOrder
      then some index else selected

section Older

variable {c : Channel T κ} {eligible : Slot → Bool} {index : Slot}

theorem older_ineligible (ineligible : eligible index = false) (selected : Option Slot) :
    c.older eligible selected index = selected := by
  unfold Channel.older
  rw [ineligible]
  rfl

theorem older_none (heligible : eligible index = true) :
    c.older eligible none index = some index := by
  unfold Channel.older
  rw [heligible]
  rfl

theorem older_some (heligible : eligible index = true) (best : Slot) :
    c.older eligible (some best) index =
      if c.orderOf index < c.orderOf best then some index else some best := by
  unfold Channel.older Channel.orderOf
  rw [heligible]
  rfl

end Older

variable {c : Channel T κ} {call : Call T κ} {seen : List Slot} (channelId generation : ℕ)

/-- The oldest slot is eligible, and none that is eligible is older. -/
theorem oldestWhere_spec {eligible : Slot → Bool} {index : Slot}
    (h : c.oldestWhere eligible = some index) :
    eligible index = true ∧ ∀ j, eligible j = true → c.orderOf index ≤ c.orderOf j := by
  refine ⟨oldestWhere_eligible h, ?_⟩
  -- the scan keeps the oldest of the slots that it has passed
  have scan : ∀ (slots : List Slot) (selected : Option Slot) (index : Slot),
      slots.foldl (c.older eligible) selected = some index →
      (∀ best, selected = some best → c.orderOf index ≤ c.orderOf best) ∧
        ∀ j ∈ slots, eligible j = true → c.orderOf index ≤ c.orderOf j := by
    intro slots
    induction slots with
    | nil =>
      rintro selected index rfl
      exact ⟨fun best hbest => (Option.some.inj hbest) ▸ Nat.le_refl _,
        fun j hj => absurd hj List.not_mem_nil⟩
    | cons slot slots ih =>
      intro selected index hfold
      rw [List.foldl_cons] at hfold
      obtain ⟨kept, passed⟩ := ih _ index hfold
      by_cases heligible : eligible slot = true
      · cases selected with
        | none =>
          rw [older_none heligible] at kept
          have first := kept slot rfl
          refine ⟨(fun best hbest => by cases hbest), fun j hj hje => ?_⟩
          rcases List.mem_cons.mp hj with rfl | hj
          · exact first
          · exact passed j hj hje
        | some best =>
          rw [older_some heligible] at kept
          have both : c.orderOf index ≤ c.orderOf slot ∧ c.orderOf index ≤ c.orderOf best := by
            split at kept
            · rename_i older
              have := kept slot rfl
              omega
            · rename_i younger
              have := kept best rfl
              omega
          refine ⟨fun best' hbest => (Option.some.inj hbest) ▸ both.2, fun j hj hje => ?_⟩
          rcases List.mem_cons.mp hj with rfl | hj
          · exact both.1
          · exact passed j hj hje
      · rw [older_ineligible (Bool.eq_false_iff.mpr heligible)] at kept
        refine ⟨kept, fun j hj hje => ?_⟩
        rcases List.mem_cons.mp hj with rfl | hj
        · exact absurd hje heligible
        · exact passed j hj hje
  exact fun j => (scan _ _ index h).2 j (List.mem_finRange j)

/-- Where nothing is selected nothing is eligible. -/
theorem oldestWhere_eq_none {eligible : Slot → Bool} (h : c.oldestWhere eligible = none)
    (slot : Slot) : eligible slot = false := by
  have scan : ∀ (slots : List Slot) (selected : Option Slot),
      slots.foldl (c.older eligible) selected = none →
      selected = none ∧ ∀ j ∈ slots, eligible j = false := by
    intro slots
    induction slots with
    | nil => exact fun selected hfold => ⟨hfold, fun j hj => absurd hj List.not_mem_nil⟩
    | cons slot slots ih =>
      intro selected hfold
      rw [List.foldl_cons] at hfold
      obtain ⟨nothing, rest⟩ := ih _ hfold
      by_cases heligible : eligible slot = true
      · cases selected with
        | none =>
          rw [older_none heligible] at nothing
          cases nothing
        | some best =>
          rw [older_some heligible] at nothing
          split at nothing <;> cases nothing
      · have ineligible : eligible slot = false := Bool.eq_false_iff.mpr heligible
        rw [older_ineligible ineligible] at nothing
        refine ⟨nothing, fun j hj => ?_⟩
        rcases List.mem_cons.mp hj with rfl | hj
        · exact ineligible
        · exact rest j hj
  exact (scan _ _ h).2 slot (List.mem_finRange slot)

/-- **The choice of a dispatch** is a service of the rotation by registration orders. -/
theorem pick_nextPendingSubscriber {index : Slot} (h : c.nextPendingSubscriber = some index) :
    Rotation.Pick c.orderOf (fun slot => c.isPending slot = true) c.dispatchCursorOrder index := by
  refine ⟨isPending_nextPendingSubscriber h, ?_⟩
  unfold Channel.nextPendingSubscriber at h
  split at h
  · rename_i i hi
    obtain rfl := Option.some.inj h
    obtain ⟨eligible, least⟩ := oldestWhere_spec hi
    simp only [Bool.and_eq_true, Bool.not_eq_true', decide_eq_false_iff_not, Nat.not_le]
      at eligible least
    exact Or.inl ⟨eligible.2, fun y due above => least y ⟨due, above⟩⟩
  · rename_i none
    refine Or.inr ⟨fun y due => ?_, (oldestWhere_spec h).2⟩
    have ineligible := oldestWhere_eq_none none y
    rw [due, Bool.true_and, Bool.not_eq_false', decide_eq_true_eq] at ineligible
    exact ineligible

/-- A pending slot is found. -/
theorem nextPendingSubscriber_of_pending {slot : Slot} (pending : c.isPending slot = true) :
    ∃ index, c.nextPendingSubscriber = some index := by
  unfold Channel.nextPendingSubscriber
  split
  · exact ⟨_, rfl⟩
  · cases hnext : c.oldestWhere c.isPending with
    | none =>
      rw [oldestWhere_eq_none hnext slot] at pending
      cases pending
    | some index => exact ⟨index, rfl⟩

/-! ### One call -/

/-- What a call keeps of a running channel: its registrations, and the notices that the slots
hold. -/
structure Keeps (c c' : Channel T κ) (slots : Slot → Prop) : Prop where
  running : c'.running = true
  active : ∀ i, (c'.subscribers i).active = (c.subscribers i).active
  orders : c'.orderOf = c.orderOf
  pending : ∀ i, slots i → c.isPending i = true → c'.isPending i = true

/-- A call on a running channel that does not stop it: a delivery to the slot that the dispatch
chose, or no delivery, which leaves the cursor alone. -/
inductive Serves (c : Channel T κ) (c' : Channel T κ) (answer : Answer T κ) : Prop
  | delivery (d : Channel.Delivery T κ) (delivered : answer = .delivered d)
      (chosen : c.nextPendingSubscriber = some d.slot)
      (cursor : c'.dispatchCursorOrder = c.orderOf d.slot) (keeps : Keeps c c' (· ≠ d.slot))
  | quiet (silent : ∀ d, answer ≠ .delivered d)
      (cursor : c'.dispatchCursorOrder = c.dispatchCursorOrder)
      (keeps : Keeps c c' fun _ => True)

section

variable (running : c.running = true)
include running

/-- A call that is refused. -/
theorem Serves.refused {answer : Answer T κ} (silent : ∀ d, answer ≠ .delivered d) :
    Serves c c answer :=
  .quiet silent rfl ⟨running, fun _ => rfl, rfl, fun _ _ h => h⟩

theorem serves_publish [BEq T] (reading : Reading T) :
    Serves c (c.publish reading).1 (.status (c.publish reading).2) := by
  have silent : ∀ status d, (.status status : Answer T κ) ≠ .delivered d :=
    fun _ _ h => nomatch h
  unfold Channel.publish
  split
  · exact .refused running (silent _)
  split
  · exact .refused running (silent _)
  -- every active slot holds a notice now
  have order : ∀ (s : Subscriber T κ) update,
      (s.mergePending update).registrationOrder = s.registrationOrder ∧
        (s.mergePending update).pending = true := by
    intro s update
    unfold Subscriber.mergePending
    split
    · exact ⟨rfl, rfl⟩
    · rename_i pending
      exact ⟨rfl, by simpa using pending⟩
  refine .quiet (silent _) rfl ⟨running, fun i => ?_, funext fun i => ?_, fun i _ pending => ?_⟩
  · dsimp only
    split
    · rw [active_mergePending]
    · rfl
  · simp only [Channel.orderOf]
    split
    · rw [(order _ _).1]
    · rfl
  · simp only [Channel.isPending, Bool.and_eq_true] at pending ⊢
    rw [if_pos pending.1, active_mergePending]
    exact ⟨pending.1, (order _ _).2⟩

theorem serves_dispatchOne [BEq T] {channelId : ℕ} :
    Serves c (c.step channelId .dispatchOne).1 (c.step channelId .dispatchOne).2 := by
  simp only [Channel.step, Channel.dispatchOne]
  split
  · exact .refused running fun _ h => by cases h
  split
  · exact .refused running fun _ h => by cases h
  split
  · exact .refused running fun _ h => by cases h
  rename_i index hnext
  refine .delivery _ rfl hnext rfl
    ⟨running, fun i => ?_, funext fun i => ?_, fun i other pending => ?_⟩
  · by_cases hi : i = index
    · subst hi
      simp [Prod.map, Subscriber.detach]
    · simp [Prod.map, Function.update_of_ne hi]
  · by_cases hi : i = index
    · subst hi
      simp [Prod.map, Channel.orderOf, Subscriber.detach]
    · simp [Prod.map, Channel.orderOf, Function.update_of_ne hi]
  · simpa [Prod.map, Channel.isPending, Function.update_of_ne other] using pending

/-- **One call** on a running channel that does not stop it. -/
theorem serves_step [BEq T] (kept : call ≠ .stop) :
    Serves c (c.step channelId call).1 (c.step channelId call).2 := by
  cases call with
  | stop => exact absurd rfl kept
  | publish reading => exact serves_publish running reading
  | dispatchOne => exact serves_dispatchOne running
  | callbackReturned =>
    exact .quiet (fun _ h => by cases h) rfl ⟨running, fun _ => rfl, rfl, fun _ _ h => h⟩
  | subscribe callback =>
    have same : c.subscribe channelId callback = (c, { status := .invalidState }) := by
      simp [Channel.subscribe, running]
    simp only [Channel.step, same]
    exact .refused running fun _ h => by cases h
  | unsubscribe handle =>
    have same : c.unsubscribe channelId handle = (c, .invalidState) := by
      simp [Channel.unsubscribe, running]
    simp only [Channel.step, same]
    exact .refused running fun _ h => by cases h
  | start =>
    have same : c.start = (c, .alreadyRunning) := by simp [Channel.start, running]
    simp only [Channel.step, same]
    exact .refused running fun _ h => by cases h

end

/-! ### A slot that waits -/

/-- A slot of a running channel has held a notice while the slots `seen` were served. -/
structure SlotWaits (c : Channel T κ) (b : Slot) (seen : List Slot) : Prop where
  running : c.running = true
  distinct : OrdersDistinct c
  pending : c.isPending b = true
  active : ∀ x ∈ seen, (c.subscribers x).active = true
  waiting : Rotation.Waiting c.orderOf b seen c.dispatchCursorOrder

theorem Keeps.distinct {c' : Channel T κ} {slots : Slot → Prop} (keeps : Keeps c c' slots)
    (distinct : OrdersDistinct c) : OrdersDistinct c' := by
  intro i j hi hj same
  rw [keeps.active] at hi hj
  rw [keeps.orders] at same
  exact distinct i j hi hj same

/-- **One call** while a slot waits: the slot is served, or one that was not served before. -/
theorem SlotWaits.step [BEq T] {b : Slot} (waits : SlotWaits c b seen) (kept : call ≠ .stop)
    (unserved : b ∉ served [(call, (c.step channelId call).2)]) :
    SlotWaits (c.step channelId call).1 b
      (seen ++ served [(call, (c.step channelId call).2)]) := by
  have activeB : (c.subscribers b).active = true := by
    have := waits.pending
    simp only [Channel.isPending, Bool.and_eq_true] at this
    exact this.1
  cases serves_step channelId waits.running kept with
  | delivery d delivered chosen cursor keeps =>
    rw [delivered] at unserved ⊢
    have one : served [(call, (Answer.delivered d : Answer T κ))] = [d.slot] := by
      cases call <;> rfl
    rw [one] at unserved ⊢
    have other : d.slot ≠ b := fun h => unserved (by simp [h])
    have pick := pick_nextPendingSubscriber chosen
    have activeD : (c.subscribers d.slot).active = true := by
      have := pick.isDue
      simp only [Channel.isPending, Bool.and_eq_true] at this
      exact this.1
    refine ⟨keeps.running, keeps.distinct waits.distinct, keeps.pending b (Ne.symm other)
      waits.pending, fun x hx => ?_, ?_⟩
    · rw [keeps.active]
      rcases List.mem_append.mp hx with hx | hx
      · exact waits.active x hx
      · rw [List.mem_singleton.mp hx]
        exact activeD
    · rw [keeps.orders, cursor]
      refine waits.waiting.pick pick waits.pending fun same => other ?_
      exact waits.distinct _ _ activeD activeB same
  | quiet silent cursor keeps =>
    have none : served [(call, (c.step channelId call).2)] = [] := by
      cases hanswer : (c.step channelId call).2 with
      | delivered d => exact absurd hanswer (silent d)
      | status status => cases call <;> rfl
      | subscription result => cases call <;> rfl
    rw [none, List.append_nil]
    refine ⟨keeps.running, keeps.distinct waits.distinct, keeps.pending b trivial waits.pending,
      fun x hx => ?_, ?_⟩
    · rw [keeps.active]
      exact waits.active x hx
    · rw [keeps.orders, cursor]
      exact waits.waiting

theorem served_append (h h' : List (Call T κ × Answer T κ)) :
    served (h ++ h') = served h ++ served h' := List.filterMap_append

/-- **A run** while a slot waits. -/
theorem SlotWaits.run [BEq T] {b : Slot} (waits : SlotWaits c b seen) {run : List (Call T κ)}
    (kept : ∀ call ∈ run, call ≠ .stop)
    (unserved : b ∉ served (trace (Channel.step channelId) c run)) :
    SlotWaits (after (Channel.step channelId) c run) b
      (seen ++ served (trace (Channel.step channelId) c run)) := by
  induction run using List.reverseRecOn with
  | nil => simpa [served] using waits
  | append_singleton run call ih =>
    rw [trace_snoc, served_append, List.mem_append, not_or] at unserved
    rw [after_snoc, trace_snoc, served_append, ← List.append_assoc]
    have before := ih (fun call hcall => kept call (List.mem_append_left _ hcall)) unserved.1
    exact before.step channelId (kept call (by simp)) unserved.2

/-- The slots that a run serves while a slot waits are fewer than the active ones. -/
theorem SlotWaits.length_lt {b : Slot} (waits : SlotWaits c b seen) :
    seen.length < (activeSlots c).length := by
  have mem : ∀ x, (c.subscribers x).active = true → x ∈ activeSlots c := fun x hx =>
    List.mem_filter.mpr ⟨List.mem_finRange x, hx⟩
  have pending := waits.pending
  simp only [Channel.isPending, Bool.and_eq_true] at pending
  exact waits.waiting.length_lt (fun x hx => mem x (waits.active x hx)) (mem b pending.1)

/-- A run that does not stop the channel keeps its registrations. -/
theorem active_run [BEq T] (running : c.running = true) {run : List (Call T κ)}
    (kept : ∀ call ∈ run, call ≠ .stop) :
    (after (Channel.step channelId) c run).running = true ∧
      ∀ i, ((after (Channel.step channelId) c run).subscribers i).active =
        (c.subscribers i).active := by
  induction run using List.reverseRecOn with
  | nil => exact ⟨running, fun _ => rfl⟩
  | append_singleton run call ih =>
    obtain ⟨still, same⟩ := ih fun call hcall => kept call (List.mem_append_left _ hcall)
    rw [after_snoc]
    have keeps : ∃ slots, Keeps (after (Channel.step channelId) c run)
        ((after (Channel.step channelId) c run).step channelId call).1 slots := by
      cases serves_step channelId still (kept call (by simp)) with
      | delivery d _ _ _ keeps => exact ⟨_, keeps⟩
      | quiet _ _ keeps => exact ⟨_, keeps⟩
    obtain ⟨slots, keeps⟩ := keeps
    exact ⟨keeps.running, fun i => (keeps.active i).trans (same i)⟩

/-- A run can be cut where it has served a number of slots. -/
theorem exists_prefix_served [BEq T] (c : Channel T κ) (run : List (Call T κ)) {n : ℕ}
    (enough : n ≤ (served (trace (Channel.step channelId) c run)).length) :
    ∃ first rest, run = first ++ rest ∧ served (trace (Channel.step channelId) c first) =
      (served (trace (Channel.step channelId) c run)).take n := by
  induction run using List.reverseRecOn with
  | nil => exact ⟨[], [], rfl, by simp [served]⟩
  | append_singleton run call ih =>
    rw [trace_snoc, served_append] at enough ⊢
    by_cases before : n ≤ (served (trace (Channel.step channelId) c run)).length
    · obtain ⟨first, rest, rfl, hfirst⟩ := ih before
      refine ⟨first, rest ++ [call], (List.append_assoc _ _ _), ?_⟩
      rw [hfirst, List.take_append_of_le_length before]
    · -- the last call served the last slot
      refine ⟨run ++ [call], [], (List.append_nil _).symm, ?_⟩
      have one : (served [(call, ((after (Channel.step channelId) c run).step channelId
          call).2)]).length ≤ 1 := by
        exact List.length_filterMap_le _ _
      rw [trace_snoc, served_append, List.take_of_length_le]
      rw [List.length_append]
      omega

/-! ### Fairness -/

/-- Between two deliveries to one slot, in a run that does not stop the channel, every other slot
that holds a notice after the first of them is served. -/
def Alternates [BEq T] (channelId : ℕ) (c : Channel T κ) : Prop :=
  ∀ call d, (c.step channelId call).2 = .delivered d →
    ∀ b ≠ d.slot, (c.step channelId call).1.isPending b = true →
      ∀ run : List (Call T κ), (∀ call ∈ run, call ≠ .stop) → ∀ call' d',
        ((after (Channel.step channelId) (c.step channelId call).1 run).step channelId
          call').2 = .delivered d' → d'.slot = d.slot →
        b ∈ served (trace (Channel.step channelId) (c.step channelId call).1 run)

theorem delivered_iff_dispatch [BEq T] {channelId : ℕ} {d : Channel.Delivery T κ}
    (delivered : (c.step channelId call).2 = .delivered d) :
    call = .dispatchOne ∧ c.running = true := by
  cases call with
  | dispatchOne =>
    refine ⟨rfl, ?_⟩
    by_contra stopped
    have refused : c.dispatchOne = (c, .error .notRunning) := if_pos (by simpa using stopped)
    simp only [Channel.step, refused] at delivered
    cases delivered
  | _ => cases delivered

/-- **Distinct orders are fair.** -/
theorem alternates_of_distinct [BEq T] (distinct : OrdersDistinct c) : Alternates channelId c := by
  intro call d delivered b other pending run kept call' d' delivered' same
  obtain ⟨rfl, running⟩ := delivered_iff_dispatch delivered
  obtain ⟨rfl, running'⟩ := delivered_iff_dispatch delivered'
  have kept' : (.dispatchOne : Call T κ) ≠ .stop := nofun
  cases serves_step channelId running kept' with
  | quiet silent _ _ => exact absurd delivered (silent d)
  | delivery e hdelivered chosen cursor keeps =>
    obtain rfl : e = d := Answer.delivered.inj (hdelivered.symm.trans delivered)
    have active : ∀ {i}, (c.step channelId .dispatchOne).1.isPending i = true →
        (c.subscribers i).active = true := by
      intro i hi
      simp only [Channel.isPending, Bool.and_eq_true] at hi
      rw [← keeps.active]
      exact hi.1
    have activeE : (c.subscribers e.slot).active = true := by
      have := (pick_nextPendingSubscriber chosen).isDue
      simp only [Channel.isPending, Bool.and_eq_true] at this
      exact this.1
    have waits : SlotWaits (c.step channelId .dispatchOne).1 b [e.slot] := by
      refine ⟨keeps.running, keeps.distinct distinct, pending, fun x hx => ?_, ?_⟩
      · rw [List.mem_singleton.mp hx, keeps.active]
        exact activeE
      · rw [keeps.orders, cursor]
        refine Rotation.waiting_singleton fun h => other ?_
        exact (distinct _ _ activeE (active pending) h).symm
    by_contra unserved
    -- the second delivery would serve the slot again while the other one waits
    have before := waits.run channelId kept unserved
    have again : served [((.dispatchOne : Call T κ), ((after (Channel.step channelId)
        (c.step channelId .dispatchOne).1 run).step channelId .dispatchOne).2)] = [e.slot] := by
      rw [delivered', ← same]
      rfl
    have twice := before.step channelId kept' (by rw [again]; simpa using other)
    rw [again] at twice
    have nodup := twice.waiting.once
    simp at nodup

/-- The calls that ask for a registration. -/
def Call.isSubscribe : Call T κ → Bool
  | .subscribe _ => true
  | _ => false

/-- The registration orders of a channel after `n` requests for a registration. -/
structure OrdersBelow (c : Channel T κ) (n : ℕ) : Prop where
  distinct : OrdersDistinct c
  below : ∀ i, (c.subscribers i).active = true → c.orderOf i < c.nextRegistrationOrder
  next : c.nextRegistrationOrder ≤ n + 1

/-- Calls that register nothing keep the orders. -/
theorem OrdersBelow.congr {c' : Channel T κ} {n : ℕ} (orders : OrdersBelow c n)
    (active : ∀ i, (c'.subscribers i).active = true →
      (c.subscribers i).active = true ∧ c'.orderOf i = c.orderOf i)
    (next : c'.nextRegistrationOrder = c.nextRegistrationOrder) : OrdersBelow c' n := by
  refine ⟨fun i j hi hj same => ?_, fun i hi => ?_, next ▸ orders.next⟩
  · obtain ⟨hi, oi⟩ := active i hi
    obtain ⟨hj, oj⟩ := active j hj
    rw [oi, oj] at same
    exact orders.distinct i j hi hj same
  · obtain ⟨hi, oi⟩ := active i hi
    rw [oi, next]
    exact orders.below i hi

theorem ordersBelow_subscribe {channelId n : ℕ} (orders : OrdersBelow c n)
    (few : n + 1 < 2 ^ 64 - 1) (callback : Option κ) :
    OrdersBelow (c.subscribe channelId callback).1 (n + 1) := by
  have later : OrdersBelow c (n + 1) :=
    ⟨orders.distinct, orders.below, Nat.le_succ_of_le orders.next⟩
  unfold Channel.subscribe
  split
  · exact later
  split
  · exact later
  split
  · exact later
  rename_i index _
  have hnext := orders.next
  have step : nextCounter 64 c.nextRegistrationOrder = c.nextRegistrationOrder + 1 := by
    unfold nextCounter
    rw [Nat.mod_eq_of_lt (by omega), if_neg (Nat.succ_ne_zero _)]
  refine ⟨fun i j hi hj same => ?_, fun i hi => ?_, ?_⟩
  · -- the new order is above all others
    by_cases hi' : i = index <;> by_cases hj' : j = index
    · rw [hi', hj']
    · subst hi'
      simp only [Channel.orderOf, Function.update_self, Function.update_of_ne hj'] at same hj
      exact absurd same (Nat.ne_of_gt (orders.below j hj))
    · subst hj'
      simp only [Channel.orderOf, Function.update_self, Function.update_of_ne hi'] at same hi
      exact absurd same (Nat.ne_of_lt (orders.below i hi))
    · simp only [Channel.orderOf, Function.update_of_ne hi', Function.update_of_ne hj']
        at same hi hj
      exact orders.distinct i j hi hj same
  · rw [step]
    by_cases hi' : i = index
    · subst hi'
      simp [Channel.orderOf]
    · simp only [Channel.orderOf, Function.update_of_ne hi'] at hi ⊢
      exact Nat.lt_succ_of_lt (orders.below i hi)
  · rw [step]
    dsimp only
    omega

/-- **One call** that is no request for a registration keeps the orders. -/
theorem ordersBelow_step [BEq T] {channelId n : ℕ} (orders : OrdersBelow c n)
    (other : call.isSubscribe = false) : OrdersBelow (c.step channelId call).1 n := by
  have detached : ∀ s : Subscriber T κ, s.detach.active = s.active ∧
      s.detach.registrationOrder = s.registrationOrder := fun _ => ⟨rfl, rfl⟩
  cases call with
  | subscribe callback => cases other
  | callbackReturned => exact orders.congr (fun _ h => ⟨h, rfl⟩) rfl
  | unsubscribe handle =>
    simp only [Channel.step, Channel.unsubscribe, Prod.map]
    split
    · exact orders
    split
    · exact orders
    · rename_i index _
      refine orders.congr (fun i hi => ?_) rfl
      by_cases hi' : i = index
      · subst hi'
        simp at hi
      · simp only [Channel.orderOf, id, Function.update_of_ne hi'] at hi ⊢
        exact ⟨hi, trivial⟩
  | start =>
    simp only [Channel.step, Channel.start, Prod.map]
    split
    · exact orders
    · exact orders.congr (fun i hi => ⟨hi, rfl⟩) rfl
  | stop =>
    simp only [Channel.step, Channel.stop, Prod.map]
    split
    · exact orders
    split
    · exact orders
    · exact orders.congr (fun i hi => ⟨hi, rfl⟩) rfl
  | publish reading =>
    cases running : c.running with
    | false =>
      have same : c.publish reading = (c, .notRunning) := by simp [Channel.publish, running]
      simp only [Channel.step, same]
      exact orders
    | true =>
      have keeps : ∃ slots, Keeps c (c.publish reading).1 slots := by
        cases serves_publish running reading with
        | delivery _ _ _ _ keeps => exact ⟨_, keeps⟩
        | quiet _ _ keeps => exact ⟨_, keeps⟩
      obtain ⟨slots, keeps⟩ := keeps
      refine orders.congr (fun i hi => ⟨keeps.active i ▸ hi, congrFun keeps.orders i⟩) ?_
      simp only [Channel.step, Prod.map, id]
      unfold Channel.publish
      split
      · rfl
      · split <;> rfl
  | dispatchOne =>
    simp only [Channel.step, Channel.dispatchOne, Prod.map]
    split
    · exact orders
    split
    · exact orders
    split
    · exact orders
    · rename_i index _
      refine orders.congr (fun i hi => ?_) rfl
      by_cases hi' : i = index
      · subst hi'
        simp only [Channel.orderOf, id, Function.update_self] at hi ⊢
        exact ⟨hi, rfl⟩
      · simp only [Channel.orderOf, id, Function.update_of_ne hi'] at hi ⊢
        exact ⟨hi, trivial⟩

/-- With fewer than `2 ^ 64 - 1` requests for a registration the orders are distinct. -/
theorem ordersBelow_after [BEq T] (calls : List (Call T κ))
    (few : calls.countP Call.isSubscribe < 2 ^ 64 - 1) :
    OrdersBelow (after (Channel.step channelId) ({} : Channel T κ) calls)
      (calls.countP Call.isSubscribe) := by
  induction calls using List.reverseRecOn with
  | nil =>
    exact ⟨fun i _ hi => (nomatch hi), fun i hi => (nomatch hi), Nat.le_refl 1⟩
  | append_singleton calls call ih =>
    rw [List.countP_append, List.countP_singleton] at few ⊢
    rw [after_snoc]
    have before := ih (by omega)
    cases hcall : call.isSubscribe with
    | false =>
      exact ordersBelow_step before hcall
    | true =>
      rw [hcall, if_pos rfl] at few
      rw [if_pos rfl]
      cases call with
      | subscribe callback => exact ordersBelow_subscribe before few callback
      | _ => cases hcall

/-- **Dispatches are fair.** After every run of calls from a fresh channel, the active slots have
registration orders of their own if there were fewer than `2 ^ 64 - 1` requests for a
registration. Let them have orders of their own, and let any calls follow that do not stop the
channel, publications and dispatches in any order. Between two deliveries to one slot, every other
slot that holds a notice after the first of them is served. A slot that holds a notice is among
the first slots served, as many as there are active ones; and as long as it holds one, every
dispatch outside of a callback delivers. -/
theorem dispatch_fair [BEq T] (channelId : ℕ) (calls : List (Call T κ)) :
    let c := after (Channel.step channelId) ({} : Channel T κ) calls
    (calls.countP Call.isSubscribe < 2 ^ 64 - 1 → OrdersDistinct c) ∧
    (OrdersDistinct c →
      Alternates channelId c ∧
      ∀ b, c.running = true → c.isPending b = true →
        (∀ run : List (Call T κ), (∀ call ∈ run, call ≠ .stop) →
          (activeSlots c).length ≤
              (served (trace (Channel.step channelId) c run)).length →
            b ∈ (served (trace (Channel.step channelId) c run)).take
              (activeSlots c).length) ∧
        (c.callbackActive = false → c.dispatching = false →
          ∃ d, (c.step channelId .dispatchOne).2 = .delivered d)) := by
  intro c
  refine ⟨fun few => (ordersBelow_after channelId calls few).distinct, fun distinct =>
    ⟨alternates_of_distinct channelId distinct, fun b running pending => ⟨?_, ?_⟩⟩⟩
  · intro run kept enough
    obtain ⟨first, rest, rfl, hfirst⟩ := exists_prefix_served channelId c run enough
    rw [← hfirst]
    by_contra unserved
    have waits : SlotWaits c b [] :=
      ⟨running, distinct, pending, fun _ hx => absurd hx List.not_mem_nil,
        Rotation.waiting_nil b _⟩
    have kept' : ∀ call ∈ first, call ≠ .stop :=
      fun call hcall => kept call (List.mem_append_left _ hcall)
    have short := (waits.run channelId kept' unserved).length_lt
    have same : activeSlots (after (Channel.step channelId) c first) = activeSlots c := by
      exact List.filter_congr fun i _ => (active_run channelId running kept').2 i
    rw [List.nil_append, same, hfirst, List.length_take] at short
    omega
  · intro idle free
    obtain ⟨index, hnext⟩ := nextPendingSubscriber_of_pending pending
    exact ⟨_, by simp [Channel.step, Channel.dispatchOne, running, idle, free, hnext]; rfl⟩

/-! ### Where the counter has wrapped around -/

section Wrapped

def firstSlot : Slot := ⟨0, by decide⟩

def secondSlot : Slot := ⟨1, by decide⟩

/-- The second slot keeps the second registration, while the first slot is free. -/
def churned (generation next : ℕ) : Channel Unit Unit where
  subscribers := fun i =>
    if i = firstSlot then { generation }
    else { callback := some (), generation := 1, registrationOrder := 2, active := true }
  nextRegistrationOrder := next

/-- The first slot is given away. -/
def taken (generation order next : ℕ) : Channel Unit Unit :=
  { churned generation next with
    subscribers := fun i =>
      if i = firstSlot then
        { callback := some (), generation, registrationOrder := order, active := true }
      else { callback := some (), generation := 1, registrationOrder := 2, active := true } }

theorem slot_cases (i : Slot) : i = firstSlot ∨ i = secondSlot := by
  revert i
  decide

theorem step_churned (next : ℕ) :
    ((churned generation next).step 0 (.subscribe (some ()))).1 =
      taken (nextCounter 16 generation) next (nextCounter 64 next) := by
  have free : (List.finRange kNotificationSubscribersPerChannel).find?
      (fun index => !((churned generation next).subscribers index).active) = some firstSlot := rfl
  have registered : (churned generation next).subscribe 0 (some ()) =
      ({ churned generation next with
          subscribers := Function.update (churned generation next).subscribers firstSlot
            { callback := some ()
              generation :=
                nextCounter 16 ((churned generation next).subscribers firstSlot).generation
              registrationOrder := next
              active := true }
          nextRegistrationOrder := nextCounter 64 next },
        { status := .ok
          value := some ⟨0, firstSlot, nextCounter 16
            ((churned generation next).subscribers firstSlot).generation⟩ }) := by
    unfold Channel.subscribe
    rw [free]
    rfl
  refine congrArg (fun subscribers => ({ churned generation (nextCounter 64 next) with
    subscribers } : Channel Unit Unit)) (funext fun i => ?_)
  rcases slot_cases i with rfl | rfl <;> rfl

theorem step_taken (order next : ℕ) :
    ((taken generation order next).step 0 (.unsubscribe ⟨0, 0, generation⟩)).1 =
      churned generation next := by
  have found : (taken generation order next).findSubscriber 0 ⟨0, 0, generation⟩ =
      some firstSlot := by
    have bound : (⟨0, 0, generation⟩ : NotificationHandle).channel = 0 ∧
        (⟨0, 0, generation⟩ : NotificationHandle).slot < kNotificationSubscribersPerChannel :=
      ⟨rfl, (by decide : 0 < kNotificationSubscribersPerChannel)⟩
    have same : (((taken generation order next).subscribers firstSlot).active &&
        ((taken generation order next).subscribers firstSlot).generation == generation) = true := by
      simp [taken]
    unfold Channel.findSubscriber
    rw [dif_pos bound]
    exact if_pos same
  have removed : (taken generation order next).unsubscribe 0 ⟨0, 0, generation⟩ =
      ({ taken generation order next with
          subscribers := Function.update (taken generation order next).subscribers firstSlot
            { generation :=
                ((taken generation order next).subscribers firstSlot).generation } }, .ok) := by
    unfold Channel.unsubscribe
    rw [found]
    rfl
  simp only [Channel.step, removed]
  refine congrArg (fun subscribers => ({ churned generation next with
    subscribers } : Channel Unit Unit)) (funext fun i => ?_)
  rcases slot_cases i with rfl | rfl <;> rfl

/-- One more registration of the first slot comes and goes. -/
theorem churn_once (next : ℕ) :
    after (Channel.step 0) (churned generation next)
      [.subscribe (some ()), .unsubscribe ⟨0, 0, nextCounter 16 generation⟩] =
      churned (nextCounter 16 generation) (nextCounter 64 next) := by
  show (Channel.step 0 (Channel.step 0 (churned generation next) _).1 _).1 = _
  rw [step_churned, step_taken]

/-- Registrations come and go until the counter is at its end. -/
theorem churn (n generation next : ℕ) (room : next + n < 2 ^ 64) :
    ∃ calls generation', after (Channel.step 0) (churned generation next) calls =
      churned generation' (next + n) := by
  induction n with
  | zero => exact ⟨[], generation, rfl⟩
  | succ n ih =>
    obtain ⟨calls, generation', reached⟩ := ih (by omega)
    refine ⟨calls ++ [.subscribe (some ()), .unsubscribe ⟨0, 0, nextCounter 16 generation'⟩],
      nextCounter 16 generation', ?_⟩
    have step : nextCounter 64 (next + n) = next + n + 1 := by
      unfold nextCounter
      rw [Nat.mod_eq_of_lt (by omega), if_neg (Nat.succ_ne_zero _)]
    rw [after_append, reached, churn_once, step]
    rfl

/-- Two active slots can come to have one registration order. -/
theorem reaches_tie : ∃ (calls : List (Call Unit Unit)) (generation : ℕ),
    after (Channel.step 0) ({} : Channel Unit Unit) calls = taken generation 2 3 := by
  have start : after (Channel.step 0) ({} : Channel Unit Unit)
      [.subscribe (some ()), .subscribe (some ()), .unsubscribe ⟨0, 0, 1⟩] = churned 1 3 := by
    refine congrArg (fun subscribers => ({ churned 1 3 with
      subscribers } : Channel Unit Unit)) (funext fun i => ?_)
    rcases slot_cases i with rfl | rfl <;> rfl
  obtain ⟨calls, generation, reached⟩ := churn (2 ^ 64 - 4) 1 3 (by decide)
  have last : 3 + (2 ^ 64 - 4) = 2 ^ 64 - 1 := by decide
  refine ⟨[.subscribe (some ()), .subscribe (some ()), .unsubscribe ⟨0, 0, 1⟩] ++ (calls ++
    ([.subscribe (some ()), .unsubscribe ⟨0, 0, nextCounter 16 generation⟩] ++
      ([.subscribe (some ()),
        .unsubscribe ⟨0, 0, nextCounter 16 (nextCounter 16 generation)⟩] ++
        [.subscribe (some ())]))), nextCounter 16 (nextCounter 16 (nextCounter 16 generation)), ?_⟩
  have wrap : nextCounter 64 (2 ^ 64 - 1) = 1 := by decide
  have one : nextCounter 64 1 = 2 := by decide
  have two : nextCounter 64 2 = 3 := by decide
  rw [after_append, start, after_append, reached, last, after_append,
    churn_once, wrap, after_append, churn_once, one]
  show (Channel.step 0 (churned _ 2) _).1 = _
  rw [step_churned, two]

/-- Once the counter has wrapped around to the order of an active slot, a slot can be served again
and again while the other one waits: here it is served twice. -/
theorem wrapped_order_starves :
    ¬ ∀ calls : List (Call Unit Unit),
      Alternates 0 (after (Channel.step 0) ({} : Channel Unit Unit) calls) := by
  intro fair
  obtain ⟨calls, generation, reached⟩ := reaches_tie
  have tied := fair (calls ++ [.start])
  rw [after_append, reached] at tied
  have other : secondSlot ≠ firstSlot := by decide
  have starved := tied .dispatchOne _ rfl secondSlot other rfl
    [.callbackReturned, .publish { value := some (), availability := .fresh }] (by simp)
    .dispatchOne _ rfl rfl
  exact absurd starved (List.not_mem_nil : secondSlot ∉ ([] : List Slot))

end Wrapped

end AccessoryController.SignalNotification
