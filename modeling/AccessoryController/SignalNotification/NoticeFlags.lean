import AccessoryController.SignalNotification.Delivery

/-!
# What the flags of a notice say

The flags of a delivered notice speak about the publications that the subscriber has not seen: the
ones since its previous delivery, or since the start. The history of the calls alone gives these
publications, with the readings that the channel had before and after each.

## Main definitions

* `Publication`: a publication with the readings of the channel
* `observe`: what a subscriber has not seen yet, from the history of the calls

## Main results

* `informed_step`: one call keeps the pending notices in agreement with the unseen publications
* `notice_flags`: the flags of every delivered notice
-/

namespace AccessoryController.SignalNotification

open VehicleCore Channel

variable {T κ : Type}

/-! ### Publications -/

/-- A publication, and the readings that the channel has had in the run before it, the latest
last. -/
structure Publication (T : Type) where
  readings : List (Reading T)
  published : Reading T

variable {p : Publication T} {call : Call T κ}

namespace Publication

variable [BEq T]

/-- The channel's reading before the publication. -/
def before (p : Publication T) : Reading T := p.readings.getLastD {}

def changed (p : Publication T) : Bool := !sameReading p.before p.published

/-- The channel's reading after the publication. -/
def after (p : Publication T) : Reading T := if p.changed then p.published else p.before

/-- The publication took the reading from available to unavailable. -/
def lost (p : Publication T) : Bool := available p.before && !available p.after

/-- The publication took the reading from unavailable to available, after an earlier available
period of the run. -/
def regained (p : Publication T) : Bool :=
  !available p.before && available p.after && p.readings.any available

theorem lost_of_unchanged (h : p.changed = false) : p.lost = false := by
  rw [lost, after, h]
  simp

theorem regained_of_unchanged (h : p.changed = false) : p.regained = false := by
  rw [regained, after, h]
  simp

end Publication

/-- The readings of the run, and the publications that a subscriber has not been told of. -/
structure Observed (T : Type) where
  readings : List (Reading T) := [{}]
  unseen : List (Publication T) := []

def Observed.publish [BEq T] (o : Observed T) (reading : Reading T) : Observed T :=
  let p : Publication T := ⟨o.readings, reading⟩
  { readings := o.readings ++ [p.after], unseen := o.unseen ++ [p] }

/-- What the history of the calls shows of the run and of one subscriber. -/
def observe [BEq T] (slot : Slot) (h : List (Call T κ × Answer T κ)) : Observed T :=
  h.foldl (fun o event =>
    match event with
    | (.start, .status .ok) => {}
    | (.publish reading, .status .ok) => o.publish reading
    | (_, .delivered d) => if d.slot = slot then { o with unseen := [] } else o
    | _ => o) {}

/-! ### Pending notices -/

/-- The slot's pending notice agrees with the unseen publications. -/
structure Matches [BEq T] (s : Subscriber T κ) (first : Bool) (unseen : List (Publication T)) :
    Prop where
  pending : s.pending = (first || unseen.any Publication.changed)
  seed : s.pending = true →
    s.pendingInitialSeed = (first && !unseen.any Publication.changed)
  initial : s.pending = true → s.pendingNotice.initial = first
  lost : s.pending = true → s.pendingNotice.becameUnavailable = unseen.any Publication.lost
  regained : s.pending = true → s.pendingNotice.recovered = unseen.any Publication.regained
  coalesced : s.pending = true →
    s.pendingNotice.coalesced = decide (2 ≤ (unseen.filter Publication.changed).length)

section

variable [BEq T] {s : Subscriber T κ} {first : Bool} {unseen : List (Publication T)}

theorem any_eq_false_of_unchanged (h : unseen.any Publication.changed = false) :
    unseen.any Publication.lost = false ∧ unseen.any Publication.regained = false ∧
      unseen.filter Publication.changed = [] := by
  rw [List.any_eq_false] at h
  refine ⟨List.any_eq_false.mpr fun p hp => ?_, List.any_eq_false.mpr fun p hp => ?_,
    List.filter_eq_nil_iff.mpr h⟩
  · rw [Publication.lost_of_unchanged (by simpa using h p hp)]
    exact Bool.false_ne_true
  · rw [Publication.regained_of_unchanged (by simpa using h p hp)]
    exact Bool.false_ne_true

/-- A start leaves the initial notice, with nothing to report. -/
theorem matches_seed (hactive : s.active = true) : Matches s.seed true [] := by
  constructor <;> simp [Subscriber.seed, hactive]

theorem matches_detach : Matches s.detach false ([] : List (Publication T)) := by
  constructor <;> simp [Subscriber.detach]

/-- A publication of an equal reading changes no notice. -/
theorem Matches.unchanged (h : Matches s first unseen) (hp : p.changed = false) :
    Matches s first (unseen ++ [p]) := by
  have hany : ∀ f : Publication T → Bool, f p = false → (unseen ++ [p]).any f = unseen.any f := by
    intro f hf
    simp [hf]
  have hchanged := hany _ hp
  have hfilter : (unseen ++ [p]).filter Publication.changed =
      unseen.filter Publication.changed := by simp [hp]
  constructor
  · rw [hchanged, h.pending]
  · rw [hchanged]
    exact h.seed
  · exact h.initial
  · rw [hany _ (Publication.lost_of_unchanged hp)]
    exact h.lost
  · rw [hany _ (Publication.regained_of_unchanged hp)]
    exact h.regained
  · rw [hfilter]
    exact h.coalesced

/-- The update of a publication that changes the reading is merged into the notice. -/
theorem Matches.merge (h : Matches s first unseen) (hp : p.changed = true) {update : Notification T}
    (hinitial : update.initial = false) (hcoalesced : update.coalesced = false)
    (hlost : update.becameUnavailable = p.lost) (hregained : update.recovered = p.regained) :
    Matches (s.mergePending update) first (unseen ++ [p]) := by
  have hchanged : (unseen ++ [p]).any Publication.changed = true := by simp [hp]
  have hcount : ((unseen ++ [p]).filter Publication.changed).length =
      (unseen.filter Publication.changed).length + 1 := by simp [hp]
  have hany : ∀ f : Publication T → Bool, (unseen ++ [p]).any f = (unseen.any f || f p) := by
    intro f
    simp
  unfold Subscriber.mergePending
  cases hpending : s.pending with
  | false =>
    -- nothing was pending, so no unseen publication had changed the reading
    have hnone := h.pending
    rw [hpending] at hnone
    obtain ⟨rfl, hquiet⟩ := Bool.or_eq_false_iff.mp hnone.symm
    obtain ⟨hlost', hregained', hfilter⟩ := any_eq_false_of_unchanged hquiet
    rw [hfilter] at hcount
    rw [Bool.not_false, if_pos rfl]
    constructor
    · rw [hchanged]
      rfl
    · intro _
      rw [hchanged]
      rfl
    · exact fun _ => hinitial
    · intro _
      rw [hany, hlost', Bool.false_or]
      exact hlost
    · intro _
      rw [hany, hregained', Bool.false_or]
      exact hregained
    · intro _
      rw [hcount]
      exact hcoalesced
  | true =>
    have hseed := h.seed hpending
    have hcoal := h.coalesced hpending
    have hmerged : (s.pendingNotice.coalesce s.pendingInitialSeed update).coalesced =
        decide (2 ≤ (unseen.filter Publication.changed).length + 1) := by
      rw [Notification.coalesce, hseed, hcoal]
      cases hquiet : unseen.any Publication.changed with
      | false =>
        -- a notice that is pending without a change is the initial one
        have hfirst := h.pending
        rw [hpending, hquiet, Bool.or_false] at hfirst
        rw [← hfirst, (any_eq_false_of_unchanged hquiet).2.2]
        rfl
      | true =>
        obtain ⟨q, hq, hqc⟩ := List.any_eq_true.mp hquiet
        have hpos : 0 < (unseen.filter Publication.changed).length :=
          List.length_pos_of_mem (List.mem_filter.mpr ⟨hq, hqc⟩)
        rw [Bool.not_true, Bool.and_false, Bool.not_false, if_pos rfl, eq_comm,
          decide_eq_true_eq]
        omega
    rw [Bool.not_true, if_neg Bool.false_ne_true]
    constructor
    · rw [hchanged, Bool.or_true]
    · intro _
      rw [hchanged, Bool.not_true, Bool.and_false]
    · exact fun _ => h.initial hpending
    · intro _
      rw [hany, ← h.lost hpending, ← hlost]
      rfl
    · intro _
      rw [hany, ← h.regained hpending, ← hregained]
      rfl
    · intro _
      rw [hcount]
      exact hmerged

end

/-! ### One call -/

section

variable [BEq T] (slot : Slot) (h : List (Call T κ × Answer T κ))

theorem observe_snoc (event : Call T κ × Answer T κ) :
    observe slot (h ++ [event]) =
      match event with
      | (.start, .status .ok) => {}
      | (.publish reading, .status .ok) => (observe slot h).publish reading
      | (_, .delivered d) =>
        if d.slot = slot then { observe slot h with unseen := [] } else observe slot h
      | _ => observe slot h := by
  rw [observe, List.foldl_append]
  rfl

theorem observe_status {status : NotificationStatus}
    (hok : status = .ok → call ≠ .start ∧ ∀ reading, call ≠ .publish reading) :
    observe slot (h ++ [(call, .status status)]) = observe slot h := by
  rw [observe_snoc]
  cases status with
  | ok =>
    obtain ⟨hstart, hpublish⟩ := hok rfl
    cases call with
    | start => exact absurd rfl hstart
    | publish reading => exact absurd rfl (hpublish reading)
    | _ => rfl
  | _ => cases call <;> rfl

theorem observe_subscription (call : Call T κ) (result : NotificationSubscriptionResult) :
    observe slot (h ++ [(call, .subscription result)]) = observe slot h := by
  rw [observe_snoc]
  cases call <;> rfl

theorem observe_delivered (call : Call T κ) (d : Delivery T κ) :
    observe slot (h ++ [(call, .delivered d)]) =
      if d.slot = slot then { observe slot h with unseen := [] } else observe slot h := by
  rw [observe_snoc]
  cases call <;> rfl

end

/-- The running channel and its active slots agree with the history of the calls. -/
structure Informed [BEq T] (c : Channel T κ) (h : List (Call T κ × Answer T κ)) : Prop where
  current : ∀ slot, c.running = true → c.current = (observe slot h).readings.getLastD {}
  period : ∀ slot, c.running = true →
    c.hasAvailablePeriod = (observe slot h).readings.any available
  slots : ∀ slot, c.running = true → (c.subscribers slot).active = true →
    Matches (c.subscribers slot) (deliveredSinceStart slot h).isEmpty (observe slot h).unseen

section

variable [BEq T] {c : Channel T κ} {h : List (Call T κ × Answer T κ)}

omit [BEq T] in
/-- An available latest reading is one of the readings. -/
theorem any_available_of_getLastD {l : List (Reading T)} (h : available (l.getLastD {}) = true) :
    l.any available = true := by
  rcases List.eq_nil_or_concat l with rfl | ⟨front, last, rfl⟩
  · cases h
  · rw [List.concat_eq_append, List.getLastD_concat] at h
    rw [List.concat_eq_append, List.any_append, List.any_cons, h, Bool.true_or, Bool.or_true]

theorem Informed.of_stopped (stopped : c.running = false) : Informed c h := by
  constructor <;>
  · intro slot running
    rw [stopped] at running
    cases running

section

variable (hi : Informed c h)
include hi

theorem Informed.of_unchanged {event : Call T κ × Answer T κ}
    (hsame : ∀ slot, observe slot (h ++ [event]) = observe slot h)
    (hdelivered : ∀ slot, deliveredSinceStart slot (h ++ [event]) = deliveredSinceStart slot h) :
    Informed c (h ++ [event]) := by
  constructor
  · intro slot running
    rw [hsame]
    exact hi.current slot running
  · intro slot running
    rw [hsame]
    exact hi.period slot running
  · intro slot running active
    rw [hsame, hdelivered]
    exact hi.slots slot running active

/-- A call that is answered with a status, and that neither starts a run nor publishes. -/
theorem Informed.of_status {status : NotificationStatus}
    (hok : status = .ok → call ≠ .start ∧ ∀ reading, call ≠ .publish reading) :
    Informed c (h ++ [(call, .status status)]) := by
  refine hi.of_unchanged (fun slot => observe_status slot h hok) fun slot => ?_
  exact deliveredSinceStart_status slot h fun hstart hstatus => (hok hstatus).1 hstart

theorem informed_start : Informed c.start.1 (h ++ [(.start, .status c.start.2)]) := by
  unfold start
  split
  · exact hi.of_status (by simp)
  · have hobserved : ∀ slot, observe slot (h ++ [(.start, .status .ok)]) = {} := fun slot => by
      rw [observe_snoc]
    constructor
    · intro slot _
      rw [hobserved]
      rfl
    · intro slot _
      rw [hobserved]
      rfl
    · intro slot _ active
      rw [hobserved, deliveredSinceStart_start]
      exact matches_seed active

theorem informed_stop : Informed c.stop.1 (h ++ [(.stop, .status c.stop.2)]) := by
  unfold stop
  split
  · exact hi.of_status (by simp)
  split
  · exact hi.of_status (by simp)
  · exact Informed.of_stopped rfl

/-- A publication is merged into the notice of every active slot. -/
theorem informed_publish (reading : Reading T) :
    Informed (c.publish reading).1 (h ++ [(.publish reading, .status (c.publish reading).2)]) := by
  have hdelivered : ∀ slot status, deliveredSinceStart slot
      (h ++ [(.publish reading, .status status)]) = deliveredSinceStart slot h :=
    fun slot status => deliveredSinceStart_status slot h (by simp)
  have hobserved : ∀ slot, observe slot (h ++ [(.publish reading, .status .ok)]) =
      (observe slot h).publish reading := fun slot => by
    rw [observe_snoc]
  unfold publish
  split
  · exact hi.of_status (by simp)
  rename_i hrun
  have hrun : c.running = true := by simpa using hrun
  -- the publication as the history shows it
  have hbefore : ∀ slot, Publication.before ⟨(observe slot h).readings, reading⟩ = c.current :=
    fun slot => (hi.current slot hrun).symm
  split
  · rename_i hsame
    have hunchanged : ∀ slot,
        Publication.changed ⟨(observe slot h).readings, reading⟩ = false := fun slot => by
      rw [Publication.changed, hbefore, hsame]
      rfl
    have hafter : ∀ slot, Publication.after ⟨(observe slot h).readings, reading⟩ = c.current :=
      fun slot => by rw [Publication.after, hunchanged, if_neg Bool.false_ne_true, hbefore]
    constructor
    · intro slot _
      rw [hobserved, Observed.publish, hafter, List.getLastD_concat]
    · intro slot running
      rw [hobserved, Observed.publish, hafter, List.any_append, ← hi.period slot running]
      have hlatest := any_available_of_getLastD (l := (observe slot h).readings)
      rw [← hi.current slot running, ← hi.period slot running] at hlatest
      cases havailable : available c.current with
      | true => simp [hlatest havailable]
      | false => simp [havailable]
    · intro slot running active
      rw [hobserved, hdelivered]
      exact (hi.slots slot running active).unchanged (hunchanged slot)
  · rename_i hsame
    have hchanged : ∀ slot,
        Publication.changed ⟨(observe slot h).readings, reading⟩ = true := fun slot => by
      rw [Publication.changed, hbefore]
      simpa using hsame
    have hafter : ∀ slot, Publication.after ⟨(observe slot h).readings, reading⟩ = reading :=
      fun slot => by rw [Publication.after, hchanged, if_pos rfl]
    constructor
    · intro slot _
      rw [hobserved, Observed.publish, hafter, List.getLastD_concat]
    · intro slot running
      rw [hobserved, Observed.publish, hafter, List.any_append, ← hi.period slot hrun,
        Bool.or_comm]
      simp
    · intro slot running active
      rw [hobserved, hdelivered]
      have hactive : (c.subscribers slot).active = true := by
        by_contra hna
        simp [hna] at active
      simp only [if_pos hactive]
      refine (hi.slots slot hrun hactive).merge (hchanged slot) rfl rfl ?_ ?_
      · rw [Publication.lost, hbefore, hafter]
      · rw [Publication.regained, hbefore, hafter, hi.period slot hrun]

/-- A dispatch takes the notice of one slot, which has then seen every publication. -/
theorem informed_dispatchOne {channelId : ℕ} :
    Informed (c.step channelId .dispatchOne).1
      (h ++ [(.dispatchOne, (c.step channelId .dispatchOne).2)]) := by
  simp only [step, dispatchOne]
  split
  · exact hi.of_status (by simp)
  split
  · exact hi.of_status (by simp)
  split
  · exact hi.of_status (by simp)
  rename_i index _
  have hreadings : ∀ slot (d : Delivery T κ),
      (observe slot (h ++ [(.dispatchOne, .delivered d)])).readings =
        (observe slot h).readings := fun slot d => by
    rw [observe_delivered]
    split <;> rfl
  constructor
  · intro slot running
    exact (hi.current slot running).trans (by rw [← hreadings slot]; rfl)
  · intro slot running
    exact (hi.period slot running).trans (by rw [← hreadings slot]; rfl)
  · intro slot running active
    by_cases hslot : index = slot
    · subst hslot
      simp only [Prod.map, id, observe_delivered, deliveredSinceStart_delivered, if_true,
        Function.update_self]
      rw [List.isEmpty_eq_false_iff.mpr (by simp)]
      exact matches_detach
    · have hother := Function.update_of_ne (Ne.symm hslot) (c.subscribers index).detach
        c.subscribers
      simp only [Prod.map, id, hother] at active ⊢
      simp only [observe_delivered, deliveredSinceStart_delivered, hslot, if_false]
      exact hi.slots slot running active

end

/-- **One call** keeps the channel informed. -/
theorem informed_step (channelId : ℕ) (c : Channel T κ) (h : List (Call T κ × Answer T κ))
    (call : Call T κ) (hi : Informed c h) :
    Informed (c.step channelId call).1 (h ++ [(call, (c.step channelId call).2)]) := by
  cases call with
  | subscribe callback =>
    have hrefused : ∀ result, Informed c (h ++ [(.subscribe callback, .subscription result)]) :=
      fun result => hi.of_unchanged (fun slot => observe_subscription slot h _ _)
        fun slot => deliveredSinceStart_subscription slot h _ _
    simp only [step, subscribe]
    split
    · exact hrefused _
    rename_i hrun
    have stopped : c.running = false := by simp_all
    split
    · exact hrefused _
    split
    · exact hrefused _
    · exact Informed.of_stopped stopped
  | unsubscribe handle =>
    simp only [step, unsubscribe]
    split
    · exact hi.of_status (by simp)
    rename_i hrun
    have stopped : c.running = false := by simp_all
    split
    · exact hi.of_status (by simp)
    · exact Informed.of_stopped stopped
  | start => exact informed_start hi
  | stop => exact informed_stop hi
  | publish reading => exact informed_publish hi reading
  | dispatchOne => exact informed_dispatchOne hi
  | callbackReturned =>
    have hkept : Informed c (h ++ [(.callbackReturned, .status .ok)]) := hi.of_status (by simp)
    exact ⟨hkept.current, hkept.period, hkept.slots⟩

end

/-! ### Every run -/

/-- A delivery hands over the pending notice of an active slot of a running channel. -/
theorem delivered_notice [BEq T] {channelId : ℕ} {c : Channel T κ} {d : Delivery T κ}
    (h : (c.step channelId call).2 = .delivered d) :
    c.running = true ∧ (c.subscribers d.slot).active = true ∧
      (c.subscribers d.slot).pending = true ∧
      d.notice = (c.subscribers d.slot).pendingNotice := by
  cases call with
  | dispatchOne =>
    simp only [step, dispatchOne] at h
    split at h
    · cases h
    rename_i hrun
    split at h
    · cases h
    split at h
    · cases h
    rename_i index hnext
    obtain rfl := Answer.delivered.inj h
    have hpending := isPending_nextPendingSubscriber hnext
    simp only [isPending, Bool.and_eq_true] at hpending
    exact ⟨by simpa using hrun, hpending.1, hpending.2, rfl⟩
  | _ => cases h

/-- **The flags of a delivered notice.** After every run of calls from a fresh channel, a notice
that the next call delivers says that the reading became unavailable, that it recovered, that
updates were coalesced and that it is the first one, exactly when the publications since the
subscriber's previous delivery, or since the start, and the deliveries since the start say so. -/
theorem notice_flags [BEq T] (channelId : ℕ) (calls : List (Call T κ)) (call : Call T κ)
    (d : Delivery T κ) (hdelivered : ((Machine.after (step channelId)
      ({} : Channel T κ) calls).step channelId call).2 = .delivered d) :
    let h := Machine.trace (step channelId) ({} : Channel T κ) calls
    let unseen := (observe d.slot h).unseen
    (d.notice.becameUnavailable = true ↔
      ∃ p ∈ unseen, available p.before = true ∧ available p.after = false) ∧
    (d.notice.recovered = true ↔
      ∃ p ∈ unseen, (available p.before = false ∧ available p.after = true) ∧
        ∃ reading ∈ p.readings, available reading = true) ∧
    (d.notice.coalesced = true ↔
      2 ≤ (unseen.filter fun p => !sameReading p.before p.published).length) ∧
    (d.notice.initial = true ↔ deliveredSinceStart d.slot h = []) := by
  intro h unseen
  have hinformed : Informed _ h := Machine.invariant (P := Informed) (Informed.of_stopped rfl)
    (fun c h call => informed_step channelId c h call) calls
  obtain ⟨hrunning, hactive, hpending, hnotice⟩ := delivered_notice hdelivered
  have hmatches := hinformed.slots d.slot hrunning hactive
  rw [hnotice, hmatches.lost hpending, hmatches.regained hpending, hmatches.coalesced hpending,
    hmatches.initial hpending]
  refine ⟨?_, ?_, ?_, ?_⟩
  · simp only [List.any_eq_true, Publication.lost, Bool.and_eq_true, Bool.not_eq_true']
    rfl
  · simp only [List.any_eq_true, Publication.regained, Bool.and_eq_true, Bool.not_eq_true']
    rfl
  · rw [decide_eq_true_eq]
    rfl
  · exact List.isEmpty_iff

/-- A signal that comes and goes before its first notice is delivered. -/
def outageCalls : List (Call Bool Unit) :=
  [.subscribe (some ()), .start, .publish { value := some true, availability := .fresh },
    .publish { value := some true, availability := .stale }]

theorem notice_flags_outage :
    ∃ d, ((Machine.after (step 0) ({} : Channel Bool Unit) outageCalls).step 0
        .dispatchOne).2 = .delivered d ∧ d.notice.becameUnavailable = true ∧
      (d.notice.becameUnavailable = true ↔
        ∃ p ∈ (observe d.slot (Machine.trace (step 0) ({} : Channel Bool Unit)
          outageCalls)).unseen, available p.before = true ∧ available p.after = false) :=
  ⟨_, rfl, rfl, (notice_flags 0 outageCalls .dispatchOne _ rfl).1⟩

end AccessoryController.SignalNotification
