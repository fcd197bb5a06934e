import AccessoryController.Library.History
import AccessoryController.ProfileRuntime.Dispatcher

/-!
# No publication and no stop is stranded

In every reachable state a pending publication has a wakeup on its way, and a stop that succeeds
leaves none behind: each was followed by a dispatch pass. A stop that is retried after its
predecessor gave up may find that the dispatcher has left its loop meanwhile. Its publication then
stays pending, and no later stop succeeds. Nothing else strands the owner.

## Main definitions

* `Awake s`: a wakeup is on its way if a publication is pending
* `Covered after`: a dispatch pass, before an exit of the dispatcher
* `Stranded s`: the dispatcher has exited, is marked started, and something is pending
* `Timely`: the owner's stop does not enqueue after the dispatcher left its loop

## Main results

* `sound_step`: one move keeps the places and the flags consistent
* `promise_step`: one move keeps every publication pending, in a pass, or covered
* `dispatcher_law`: the three laws of every run
-/

namespace AccessoryController.ProfileRuntime

open History
open DispatchService (dispatcherStep ownerStep pollExit pollQuiescence readFlags request
  startRuntime step stopRuntime)

/-! ### The laws -/

/-- If dispatching is enabled and something is pending, then the semaphore is given, or the
dispatcher has taken it and not yet read the flags, or an enqueuer has not yet given it. -/
def Awake (s : DispatchService) : Prop :=
  s.dispatchEnabled = true → s.dispatchPending = true →
    s.dispatchWake = true ∨ s.task = .taken ∨ s.raised ≠ 0 ∨ ∃ enqueue, s.owner = .waking enqueue

/-- A whole dispatch pass, before the dispatcher exits. -/
def Covered (after : List DispatchEvent) : Prop :=
  ∃ idle pass rest, after = idle ++ .passBegan :: pass ++ .passEnded :: rest ∧
    .exited ∉ idle ∧ .exited ∉ pass

/-- The dispatcher has exited and is marked started, and something is pending. -/
def Stranded (s : DispatchService) : Prop :=
  s.dispatcherExited = true ∧ s.dispatcherStarted = true ∧ s.dispatchPending = true

instance (s : DispatchService) : Decidable (Stranded s) := inferInstanceAs (Decidable (_ ∧ _))

/-- The owner is about to raise the pending flag for a stop. -/
def OwnerPlace.stops : OwnerPlace → Bool
  | .raising (.stop _) => true
  | _ => false

/-- The owner takes a step. -/
def DispatchMove.ofOwner : DispatchMove → Bool
  | .owner _ _ => true
  | _ => false

/-- A stop does not enqueue after the dispatcher has left its loop. -/
def Timely (move : DispatchService × DispatchMove) : Prop :=
  move.2.ofOwner = true → move.1.owner.stops = true → ¬ move.1.task.left

instance (move : DispatchService × DispatchMove) : Decidable (Timely move) :=
  inferInstanceAs (Decidable (_ → _))

/-! ### The places -/

/-- No dispatcher was started, and nothing is pending. -/
@[mk_iff] structure Resting (s : DispatchService) : Prop where
  inactive : s.providerActive = false
  unstarted : s.dispatcherStarted = false
  idle : s.dispatchPending = false
  absent : s.task = .absent
  stopped : s.runtimeRunning = false

/-- The dispatcher is marked started, but nothing is enabled yet. -/
@[mk_iff] structure Preparing (s : DispatchService) : Prop where
  started : s.dispatcherStarted = true
  disabled : s.dispatchEnabled = false
  unrequested : s.dispatchShutdownRequested = false
  idle : s.dispatchPending = false
  stopped : s.runtimeRunning = false

/-- The dispatcher is started and enabled. -/
@[mk_iff] structure Working (s : DispatchService) : Prop where
  active : s.providerActive = true
  started : s.dispatcherStarted = true
  enabled : s.dispatchEnabled = true
  present : s.task ≠ .absent

/-- The runtime is stopped, and nothing is pending or dispatched. -/
@[mk_iff] structure Quiet (s : DispatchService) : Prop where
  stopped : s.runtimeRunning = false
  idle : s.dispatchPending = false
  inactive : s.dispatchActive = false

/-- What the owner knows where it is. -/
def AtPlace (s : DispatchService) : Prop :=
  match s.owner with
  | .idle => Resting s ∨ Working s
  | .starting => Resting s
  | .claiming | .draining | .creating | .abandoning _ =>
    Preparing s ∧ s.providerActive = false ∧ s.task = .absent ∧ s.dispatcherExited = false
  | .activating => Preparing s ∧ s.task ≠ .absent
  | .enabling => Preparing s ∧ s.providerActive = true ∧ s.task ≠ .absent
  | .raising .start | .waking .start | .startingRuntime =>
    Working s ∧ s.runtimeRunning = false ∧ s.dispatchShutdownRequested = false
  | .awaitingRuntime | .raising (.stop _) | .waking (.stop _) | .stoppingRuntime _ => Working s
  | .quiescing _ _ => Working s ∧ s.runtimeRunning = false
  | .requesting _ => Working s ∧ Quiet s
  | .signalling _ | .awaitingExit _ _ =>
    Working s ∧ Quiet s ∧ s.dispatchShutdownRequested = true
  | .deleting _ => Working s ∧ Quiet s ∧ s.task = .suspended
  | .unmarking _ => s.dispatcherStarted = true ∧ Quiet s ∧ s.task = .absent
  | .finishing _ _ => s.dispatcherStarted = false ∧ Quiet s ∧ s.task = .absent
  | .destroying => (Resting s ∨ Working s) ∧ s.runtimeRunning = false
  | .destroyed => s.dispatcherStarted = false

/-- The flags agree with the places. -/
structure Sound (s : DispatchService) : Prop where
  place : AtPlace s
  awake : Awake s
  /-- Enqueuers act while the runtime runs, -/
  raised : s.raised ≠ 0 → s.runtimeRunning = true
  /-- and it runs only between a start and the request of the shutdown. -/
  running : s.runtimeRunning = true →
    s.dispatcherStarted = true ∧ s.dispatchShutdownRequested = false
  active : s.dispatchActive = true ↔ s.task = .dispatching ∨ s.task = .dispatched
  left : s.task.left → s.dispatchShutdownRequested = true
  exited : s.dispatcherStarted = true → s.dispatcherExited = true → s.task ≠ .absent → s.task.left
  marked : s.task = .exiting ∨ s.task = .suspended → s.dispatcherExited = true

theorem sound_start : Sound {} where
  place := Or.inl ⟨rfl, rfl, rfl, rfl, rfl⟩
  awake enabled := by cases enabled
  raised none := absurd rfl none
  running runs := by cases runs
  active := by decide
  left := by decide
  exited started := by cases started
  marked := by decide

section Others

variable {s s' : DispatchService}

/-- A step of the dispatcher or of an enqueuer leaves the owner's flags alone. It raises the
pending flag only while the runtime runs, and marks a pass active only for something pending. -/
structure Beside (s s' : DispatchService) : Prop where
  owner : s'.owner = s.owner
  providerActive : s'.providerActive = s.providerActive
  started : s'.dispatcherStarted = s.dispatcherStarted
  enabled : s'.dispatchEnabled = s.dispatchEnabled
  requested : s'.dispatchShutdownRequested = s.dispatchShutdownRequested
  running : s'.runtimeRunning = s.runtimeRunning
  pending : s'.dispatchPending = true → s.dispatchPending = true ∨ s.runtimeRunning = true
  active : s'.dispatchActive = true → s.dispatchActive = true ∨ s.dispatchPending = true
  exited : s'.dispatcherExited = true → s.dispatcherExited = true ∨ s.task ≠ .absent
  absent : s'.task = .absent ↔ s.task = .absent
  suspended : s.task = .suspended → s'.task = .suspended

section

variable (beside : Beside s s')
include beside

theorem Beside.idle (idle : s.dispatchPending = false) (stopped : s.runtimeRunning = false) :
    s'.dispatchPending = false := by
  by_contra pending
  rcases beside.pending (by simpa using pending) with pending | running
  · exact absurd (idle.symm.trans pending) (by simp)
  · exact absurd (stopped.symm.trans running) (by simp)

theorem Beside.resting (resting : Resting s) : Resting s' :=
  ⟨beside.providerActive.trans resting.inactive, beside.started.trans resting.unstarted,
    beside.idle resting.idle resting.stopped, beside.absent.mpr resting.absent,
    beside.running.trans resting.stopped⟩

theorem Beside.preparing (preparing : Preparing s) : Preparing s' :=
  ⟨beside.started.trans preparing.started, beside.enabled.trans preparing.disabled,
    beside.requested.trans preparing.unrequested,
    beside.idle preparing.idle preparing.stopped, beside.running.trans preparing.stopped⟩

theorem Beside.working (working : Working s) : Working s' :=
  ⟨beside.providerActive.trans working.active, beside.started.trans working.started,
    beside.enabled.trans working.enabled, fun absent => working.present (beside.absent.mp absent)⟩

theorem Beside.quiet (quiet : Quiet s) : Quiet s' := by
  refine ⟨beside.running.trans quiet.stopped, beside.idle quiet.idle quiet.stopped, ?_⟩
  by_contra active
  rcases beside.active (by simpa using active) with active | pending
  · exact absurd (quiet.inactive.symm.trans active) (by simp)
  · exact absurd (quiet.idle.symm.trans pending) (by simp)

/-- The others leave the owner what it knows. -/
theorem Beside.atPlace (place : AtPlace s) : AtPlace s' := by
  have unexited : s.task = .absent → s.dispatcherExited = false → s'.dispatcherExited = false := by
    intro absent unexited
    by_contra exited
    rcases beside.exited (by simpa using exited) with exited | present
    · exact absurd (unexited.symm.trans exited) (by simp)
    · exact present absent
  unfold AtPlace at place ⊢
  rw [beside.owner]
  cases howner : s.owner with rw [howner] at place
  | idle =>
    exact place.imp beside.resting beside.working
  | starting =>
    exact beside.resting place
  | claiming | draining | creating | abandoning =>
    obtain ⟨preparing, inactive, absent, exited⟩ := place
    exact ⟨beside.preparing preparing, beside.providerActive.trans inactive,
      beside.absent.mpr absent, unexited absent exited⟩
  | activating =>
    exact ⟨beside.preparing place.1, fun absent => place.2 (beside.absent.mp absent)⟩
  | enabling =>
    exact ⟨beside.preparing place.1, beside.providerActive.trans place.2.1,
      fun absent => place.2.2 (beside.absent.mp absent)⟩
  | raising enqueue | waking enqueue =>
    cases enqueue with
    | start =>
      exact ⟨beside.working place.1, beside.running.trans place.2.1,
        beside.requested.trans place.2.2⟩
    | stop retrying => exact beside.working place
  | startingRuntime =>
    exact ⟨beside.working place.1, beside.running.trans place.2.1,
      beside.requested.trans place.2.2⟩
  | awaitingRuntime | stoppingRuntime =>
    exact beside.working place
  | quiescing =>
    exact ⟨beside.working place.1, beside.running.trans place.2⟩
  | requesting =>
    exact ⟨beside.working place.1, beside.quiet place.2⟩
  | signalling | awaitingExit =>
    exact ⟨beside.working place.1, beside.quiet place.2.1, beside.requested.trans place.2.2⟩
  | deleting =>
    exact ⟨beside.working place.1, beside.quiet place.2.1, beside.suspended place.2.2⟩
  | unmarking | finishing =>
    exact ⟨beside.started.trans place.1, beside.quiet place.2.1, beside.absent.mpr place.2.2⟩
  | destroying =>
    exact ⟨place.1.imp beside.resting beside.working, beside.running.trans place.2⟩
  | destroyed =>
    exact beside.started.trans place

end

end Others

theorem beside_dispatcher (s : DispatchService) : Beside s s.dispatcherStep.1 := by
  unfold dispatcherStep readFlags
  cases htask : s.task <;> dsimp only <;> (repeat' split) <;> constructor <;> simp_all

variable {s : DispatchService} {h : List DispatchEvent} (moves : List DispatchMove)

section

variable (sound : Sound s)
include sound

theorem sound_dispatcher : Sound s.dispatcherStep.1 := by
  have place := (beside_dispatcher s).atPlace sound.place
  obtain ⟨-, awake, raised, running, active, left, exited, marked⟩ := sound
  unfold dispatcherStep readFlags at place ⊢
  cases htask : s.task <;> rw [htask] at place <;> dsimp only at place ⊢ <;> (repeat' split) <;>
    refine ⟨?_, ?_, ?_, ?_, ?_, ?_, ?_, ?_⟩ <;>
    first
      | assumption
      | simp_all [TaskPlace.left, Awake]

theorem sound_raise : Sound (s.step .raise).1 := by
  have beside : Beside s (s.step .raise).1 := by
    unfold step
    dsimp only
    split
    · rename_i running
      exact ⟨rfl, rfl, rfl, rfl, rfl, rfl, fun _ => Or.inr running, Or.inl, Or.inl, Iff.rfl, id⟩
    · exact ⟨rfl, rfl, rfl, rfl, rfl, rfl, Or.inl, Or.inl, Or.inl, Iff.rfl, id⟩
  have place := beside.atPlace sound.place
  unfold step at place ⊢
  dsimp only at place ⊢
  split
  · rename_i running
    rw [if_pos running] at place
    exact ⟨place, fun _ _ => Or.inr (Or.inr (Or.inl (Nat.succ_ne_zero _))), fun _ => running,
      sound.running, sound.active, sound.left, sound.exited, sound.marked⟩
  · exact sound

theorem sound_give : Sound (s.step .give).1 := by
  have beside : Beside s (s.step .give).1 := by
    unfold step
    dsimp only
    split <;> exact ⟨rfl, rfl, rfl, rfl, rfl, rfl, Or.inl, Or.inl, Or.inl, Iff.rfl, id⟩
  have place := beside.atPlace sound.place
  unfold step at place ⊢
  dsimp only at place ⊢
  split
  · exact sound
  · rename_i some
    rw [if_neg some] at place
    exact ⟨place, fun _ _ => Or.inl rfl, fun _ => sound.raised some, sound.running, sound.active,
      sound.left, sound.exited, sound.marked⟩

theorem sound_call (call : LifecycleCall) : Sound (s.call call).1 := by
  unfold DispatchService.call
  split
  · exact sound
  rename_i howner
  rw [not_not] at howner
  obtain ⟨place, awake, raised, running, active, left, exited, marked⟩ := sound
  -- nobody wakes the dispatcher for an idle owner
  have awake' : ∀ owner, Awake { s with owner } := by
    intro owner enabled pending
    rcases awake enabled pending with given | taken | some | ⟨enqueue, waking⟩
    · exact Or.inl given
    · exact Or.inr (Or.inl taken)
    · exact Or.inr (Or.inr (Or.inl some))
    · rw [howner] at waking
      cases waking
  unfold AtPlace at place
  rw [howner] at place
  cases call with
  | start =>
    dsimp only
    split
    · exact ⟨by unfold AtPlace; rw [howner]; exact place, awake, raised, running, active, left,
        exited, marked⟩
    · rename_i inactive
      have resting := place.resolve_right fun working => inactive working.active
      exact ⟨{ resting with }, awake' _, raised, running, active, left, exited, marked⟩
  | stop =>
    dsimp only
    split
    · exact ⟨by unfold AtPlace; rw [howner]; exact place, awake, raised, running, active, left,
        exited, marked⟩
    · rename_i busy
      have working : Working s := place.resolve_left fun resting => busy <| by
        rw [resting.stopped, resting.inactive]
        rfl
      exact ⟨{ working with }, awake' _, raised, running, active, left, exited, marked⟩
  | destroy =>
    dsimp only
    split
    · rename_i none
      refine ⟨⟨place.imp (fun resting => { resting with stopped := rfl })
        fun working => { working with }, rfl⟩, awake' _, fun some => absurd none some,
        fun runs => ?_, active, left, exited, marked⟩
      cases runs
    · exact ⟨by unfold AtPlace; rw [howner]; exact place, awake, raised, running, active, left,
        exited, marked⟩

/-- The owner moves on, without having woken the dispatcher. -/
theorem Sound.move {owner : OwnerPlace} (place : AtPlace { s with owner })
    (other : ∀ enqueue, s.owner ≠ .waking enqueue) : Sound { s with owner } := by
  refine ⟨place, fun enabled pending => ?_, sound.raised, sound.running, sound.active, sound.left,
    sound.exited, sound.marked⟩
  rcases sound.awake enabled pending with given | taken | some | ⟨enqueue, waking⟩
  · exact Or.inl given
  · exact Or.inr (Or.inl taken)
  · exact Or.inr (Or.inr (Or.inl some))
  · exact absurd waking (other enqueue)

theorem sound_owner (answer : ResultCode) (running : Bool) :
    Sound (s.ownerStep answer running).1 := by
  have ⟨place, awake, raised, runs, active, left, exited, marked⟩ := sound
  unfold AtPlace at place
  unfold ownerStep
  cases howner : s.owner with rw [howner] at place
  | idle | destroyed => exact sound
  | starting =>
    dsimp only
    split
    · exact sound.move (Or.inl { place with }) (by simp [howner])
    · constructor <;> simp_all [AtPlace, Awake, resting_iff, preparing_iff, TaskPlace.left]
  | claiming =>
    dsimp only
    split
    · exact sound.move ⟨{ place.1 with }, place.2⟩ (by simp [howner])
    · exact sound.move ⟨{ place.1 with }, place.2⟩ (by simp [howner])
  | abandoning code =>
    dsimp only [DispatchService.abandon]
    constructor <;> simp_all [AtPlace, Awake, resting_iff, preparing_iff]
  | draining =>
    constructor <;> simp_all [AtPlace, Awake, preparing_iff]
  | creating =>
    dsimp only
    split
    · constructor <;> simp_all [AtPlace, Awake, preparing_iff, TaskPlace.left]
    · exact sound.move ⟨{ place.1 with }, place.2⟩ (by simp [howner])
  | activating =>
    constructor <;> simp_all [AtPlace, Awake, preparing_iff]
  | enabling =>
    constructor <;> simp_all [AtPlace, Awake, preparing_iff, working_iff]
  | raising enqueue =>
    cases enqueue <;> constructor <;> simp_all [AtPlace, Awake, working_iff]
  | waking enqueue =>
    cases enqueue <;> constructor <;> simp_all [AtPlace, Awake, working_iff]
  | startingRuntime =>
    constructor <;> simp_all [AtPlace, Awake, working_iff]
  | awaitingRuntime =>
    dsimp only [startRuntime]
    split
    · exact sound.move (Or.inr { place with }) (by simp [howner])
    split
    · constructor <;> simp_all [AtPlace, Awake, working_iff]
    · exact sound
  | stoppingRuntime retrying =>
    dsimp only [stopRuntime]
    split
    · rename_i stopped
      exact sound.move ⟨{ place with }, by simpa using stopped⟩ (by simp [howner])
    cases answer with
    | ok =>
      dsimp only
      split
      · constructor <;> simp_all [AtPlace, Awake, working_iff]
      · exact sound
    | notRunning => exact sound
    | _ => exact sound.move (Or.inr { place with }) (by simp [howner])
  | quiescing shutdown waited =>
    dsimp only [pollQuiescence]
    split
    · rename_i quiet
      simp only [Bool.and_eq_true, Bool.not_eq_true'] at quiet
      exact sound.move ⟨{ place.1 with }, place.2, quiet.1, quiet.2⟩ (by simp [howner])
    cases shutdown with
    | destructor => exact sound
    | stop retrying result =>
      dsimp only
      split
      · exact sound.move ⟨{ place.1 with }, place.2⟩ (by simp [howner])
      · exact sound.move (Or.inr { place.1 with }) (by simp [howner])
  | requesting shutdown =>
    dsimp only [request]
    cases shutdown with
    | destructor =>
      constructor <;> simp_all [AtPlace, Awake, working_iff, quiet_iff]
    | stop retrying result =>
      dsimp only
      split
      · simp_all [working_iff]
      · constructor <;> simp_all [AtPlace, Awake, working_iff, quiet_iff]
  | signalling shutdown =>
    constructor <;> simp_all [AtPlace, Awake, working_iff, quiet_iff]
  | awaitingExit shutdown waited =>
    dsimp only [pollExit]
    split
    · rename_i ended
      simp only [Bool.and_eq_true, beq_iff_eq] at ended
      exact sound.move ⟨{ place.1 with }, { place.2.1 with }, ended.2⟩ (by simp [howner])
    cases shutdown with
    | destructor => exact sound
    | stop retrying result =>
      dsimp only
      split
      · exact sound.move ⟨{ place.1 with }, { place.2.1 with }, place.2.2⟩ (by simp [howner])
      · exact sound.move (Or.inr { place.1 with }) (by simp [howner])
  | deleting shutdown =>
    constructor <;> simp_all [AtPlace, Awake, working_iff, quiet_iff, TaskPlace.left]
  | unmarking shutdown =>
    cases shutdown <;> constructor <;> simp_all [AtPlace, Awake, quiet_iff]
  | finishing retrying result =>
    constructor <;> simp_all [AtPlace, Awake, resting_iff, quiet_iff]
  | destroying =>
    dsimp only
    split
    · rename_i down
      have unstarted : s.dispatcherStarted = false := by simpa using down
      exact sound.move unstarted (by simp [howner])
    · constructor <;> simp_all [AtPlace, Awake, resting_iff, working_iff]

/-- **One move** keeps the flags and the places consistent. -/
theorem sound_step (move : DispatchMove) : Sound (s.step move).1 := by
  cases move with
  | call call => exact sound_call sound call
  | owner answer running => exact sound_owner sound answer running
  | dispatcher => exact sound_dispatcher sound
  | raise => exact sound_raise sound
  | give => exact sound_give sound

end

/-! ### The publications -/

/-- A pass has begun, before the dispatcher exits. -/
def Begun (after : List DispatchEvent) : Prop :=
  ∃ idle pass, after = idle ++ .passBegan :: pass ∧ .exited ∉ idle ∧ .exited ∉ pass

/-- What has become of a publication: a pass covers it or has begun, or it is pending, in a
dispatcher that has not exited since or will not dispatch again. -/
def Promised (s : DispatchService) (after : List DispatchEvent) : Prop :=
  Covered after ∨ (s.task = .dispatching ∧ Begun after) ∨
    (s.dispatchPending = true ∧ (s.task.left ∨ .exited ∉ after))

/-- Every publication is promised a pass. -/
def Promise (s : DispatchService) (h : List DispatchEvent) : Prop :=
  Since (· = .enqueued) (Promised s) h

theorem Covered.append {after : List DispatchEvent} (covered : Covered after)
    (events : List DispatchEvent) : Covered (after ++ events) := by
  obtain ⟨idle, pass, rest, rfl, hidle, hpass⟩ := covered
  exact ⟨idle, pass, rest ++ events, by simp, hidle, hpass⟩

/-- A move without an event that neither ends a pass nor brings the dispatcher back. -/
theorem Promise.keep {s' : DispatchService} (promise : Promise s h)
    (dispatching : s.task = .dispatching → s'.task = .dispatching)
    (left : s.task.left → s'.task.left)
    (pending : s.dispatchPending = true → s'.dispatchPending = true) : Promise s' h := by
  refine promise.mono fun after promised => ?_
  rcases promised with covered | ⟨dispatches, begun⟩ | ⟨waiting, since⟩
  · exact Or.inl covered
  · exact Or.inr (Or.inl ⟨dispatching dispatches, begun⟩)
  · exact Or.inr (Or.inr ⟨pending waiting, since.imp_left left⟩)

/-- An event other than an exit. -/
theorem Promise.event (promise : Promise s h) {event : DispatchEvent} (other : event ≠ .exited)
    (pending : event = .enqueued → s.dispatchPending = true) : Promise s (h ++ [event]) := by
  refine since_snoc.mpr ⟨promise.mono fun after promised => ?_, fun enqueued => ?_⟩
  · rcases promised with covered | ⟨dispatching, idle, pass, rfl, hidle, hpass⟩ | ⟨waiting, since⟩
    · exact Or.inl (covered.append _)
    · refine Or.inr (Or.inl ⟨dispatching, idle, pass ++ [event], by simp, hidle, ?_⟩)
      simpa using ⟨hpass, other.symm⟩
    · refine Or.inr (Or.inr ⟨waiting, since.imp_right fun unexited => ?_⟩)
      simpa using ⟨unexited, other.symm⟩
  · exact Or.inr (Or.inr ⟨pending enqueued, Or.inr List.not_mem_nil⟩)

/-- When nothing is pending and no task is there, every publication was covered. -/
theorem Promise.covered (promise : Promise s h) (idle : s.dispatchPending = false)
    (absent : s.task = .absent) : Since (· = .enqueued) Covered h := by
  refine promise.mono fun after promised => ?_
  rcases promised with covered | ⟨dispatching, -⟩ | ⟨waiting, -⟩
  · exact covered
  · rw [absent] at dispatching
    cases dispatching
  · exact absurd (idle.symm.trans waiting) (by simp)

/-- The dispatcher keeps the promises. -/
theorem promise_dispatcher (promise : Promise s h) :
    Promise s.dispatcherStep.1 (h ++ s.dispatcherStep.2.toList) := by
  have silent : ∀ {s' : DispatchService}, Promise s' h →
      Promise s' (h ++ (none : Option DispatchEvent).toList) := fun promise => by simpa using promise
  unfold dispatcherStep
  cases htask : s.task with
  | absent | suspended => exact silent promise
  | taking =>
    dsimp only
    split
    · exact silent (promise.keep (by simp [htask]) (by simp [htask, TaskPlace.left]) id)
    · exact silent promise
  | taken =>
    dsimp only [readFlags]
    split
    · exact silent (promise.keep (by simp [htask]) (by simp [htask, TaskPlace.left]) id)
    split
    · -- the pass covers whatever was pending
      refine since_snoc.mpr ⟨promise.mono fun after promised => ?_, fun enqueued => by cases enqueued⟩
      rcases promised with covered | ⟨dispatching, -⟩ | ⟨-, left | unexited⟩
      · exact Or.inl (covered.append _)
      · exact absurd (htask.symm.trans dispatching) (by simp)
      · rw [htask] at left
        exact absurd left (by decide)
      · exact Or.inr (Or.inl ⟨rfl, after, [], rfl, unexited, List.not_mem_nil⟩)
    · exact silent (promise.keep (by simp [htask]) (by simp [htask, TaskPlace.left]) id)
  | dispatching =>
    refine since_snoc.mpr ⟨promise.mono fun after promised => ?_, fun enqueued => by cases enqueued⟩
    rcases promised with covered | ⟨-, idle, pass, rfl, hidle, hpass⟩ | ⟨waiting, left | unexited⟩
    · exact Or.inl (covered.append _)
    · exact Or.inl ⟨idle, pass, [], by simp, hidle, hpass⟩
    · rw [htask] at left
      exact absurd left (by decide)
    · exact Or.inr (Or.inr ⟨waiting, Or.inr (by simpa using unexited)⟩)
  | dispatched =>
    exact silent (promise.keep (by simp [htask]) (by simp [htask, TaskPlace.left]) id)
  | leaving =>
    -- what is pending when the dispatcher exits stays pending
    refine since_snoc.mpr ⟨promise.mono fun after promised => ?_, fun enqueued => by cases enqueued⟩
    rcases promised with covered | ⟨dispatching, -⟩ | ⟨waiting, -⟩
    · exact Or.inl (covered.append _)
    · exact absurd (htask.symm.trans dispatching) (by simp)
    · exact Or.inr (Or.inr ⟨waiting, Or.inl (Or.inr (Or.inl rfl))⟩)
  | exiting => exact silent (promise.keep (by simp [htask]) (by simp [TaskPlace.left]) id)

/-- The owner keeps the promises. -/
theorem promise_owner (sound : Sound s) (promise : Promise s h) (answer : ResultCode)
    (running : Bool) :
    Promise (s.ownerStep answer running).1 (h ++ (s.ownerStep answer running).2.toList) := by
  have place := sound.place
  unfold AtPlace at place
  have silent : ∀ {s' : DispatchService}, Promise s' h →
      Promise s' (h ++ (none : Option DispatchEvent).toList) := fun promise => by simpa using promise
  unfold ownerStep
  cases howner : s.owner with
  | idle | destroyed => exact silent promise
  | starting =>
    rw [howner] at place
    dsimp only
    split
    · exact (promise.keep id id id).event (by simp) (by simp)
    · exact silent (promise.keep id id fun pending =>
        absurd (place.idle.symm.trans pending) (by simp))
  | claiming =>
    dsimp only
    split <;> exact silent (promise.keep id id id)
  | abandoning code => exact (promise.keep id id id).event (by simp) (by simp)
  | draining => exact silent (promise.keep id id id)
  | creating =>
    rw [howner] at place
    dsimp only
    split
    · exact silent (promise.keep (by simp [place]) (by simp [place, TaskPlace.left]) id)
    · exact silent (promise.keep id id id)
  | activating | enabling => exact silent (promise.keep id id id)
  | raising enqueue =>
    have raised : Promise { s with dispatchPending := true, owner := .waking enqueue } h :=
      promise.keep id id fun _ => rfl
    exact raised.event (by simp) fun _ => rfl
  | waking enqueue => cases enqueue <;> exact silent (promise.keep id id id)
  | startingRuntime => exact silent (promise.keep id id id)
  | awaitingRuntime =>
    dsimp only [startRuntime]
    split
    · exact (promise.keep id id id).event (by simp) (by simp)
    split
    · exact (promise.keep id id id).event (by simp) (by simp)
    · exact silent promise
  | stoppingRuntime retrying =>
    dsimp only [stopRuntime]
    split
    · exact silent (promise.keep id id id)
    cases answer with
    | ok =>
      dsimp only
      split
      · exact silent (promise.keep id id id)
      · exact silent promise
    | notRunning => exact silent promise
    | _ => exact (promise.keep id id id).event (by simp) (by simp)
  | quiescing shutdown waited =>
    dsimp only [pollQuiescence]
    split
    · exact silent (promise.keep id id id)
    cases shutdown with
    | destructor => exact silent promise
    | stop retrying result =>
      dsimp only
      split
      · exact silent (promise.keep id id id)
      · exact (promise.keep id id id).event (by simp) (by simp)
  | requesting shutdown =>
    dsimp only [request]
    cases shutdown with
    | destructor => exact silent (promise.keep id id id)
    | stop retrying result =>
      dsimp only
      split <;> exact silent (promise.keep id id id)
  | signalling shutdown => exact silent (promise.keep id id id)
  | awaitingExit shutdown waited =>
    dsimp only [pollExit]
    split
    · exact silent (promise.keep id id id)
    cases shutdown with
    | destructor => exact silent promise
    | stop retrying result =>
      dsimp only
      split
      · exact silent (promise.keep id id id)
      · exact (promise.keep id id id).event (by simp) (by simp)
  | deleting shutdown =>
    rw [howner] at place
    -- the dispatcher that is deleted left nothing pending
    refine silent (promise.mono fun after promised => ?_)
    rcases promised with covered | ⟨dispatching, -⟩ | ⟨waiting, -⟩
    · exact Or.inl covered
    · exact absurd (place.2.2.symm.trans dispatching) (by simp)
    · exact absurd (place.2.1.idle.symm.trans waiting) (by simp)
  | unmarking shutdown => cases shutdown <;> exact silent (promise.keep id id id)
  | finishing retrying result => exact (promise.keep id id id).event (by simp) (by simp)
  | destroying =>
    dsimp only
    split <;> exact silent (promise.keep id id id)

/-- **One move** keeps every publication promised a pass. -/
theorem promise_step (sound : Sound s) (promise : Promise s h) (move : DispatchMove) :
    Promise (s.step move).1 (h ++ (s.step move).2.toList) := by
  have silent : ∀ {s' : DispatchService}, Promise s' h →
      Promise s' (h ++ (none : Option DispatchEvent).toList) := fun promise => by simpa using promise
  cases move with
  | owner answer running => exact promise_owner sound promise answer running
  | dispatcher => exact promise_dispatcher promise
  | call call =>
    dsimp only [step, DispatchService.call]
    split
    · exact silent promise
    cases call with
    | start =>
      dsimp only
      split
      · exact promise.event (by simp) (by simp)
      · exact silent (promise.keep id id id)
    | stop =>
      dsimp only
      split
      · exact promise.event (by simp) (by simp)
      · exact silent (promise.keep id id id)
    | destroy =>
      dsimp only
      split
      · exact silent (promise.keep id id id)
      · exact silent promise
  | raise =>
    dsimp only [step]
    split
    · have raised : Promise { s with dispatchPending := true, raised := s.raised + 1 } h :=
        promise.keep id id fun _ => rfl
      exact raised.event (by simp) fun _ => rfl
    · exact silent promise
  | give =>
    dsimp only [step]
    split
    · exact silent promise
    · exact silent (promise.keep id id id)

/-- A stop that succeeds has deleted the dispatcher, with nothing pending. -/
theorem quiet_of_stopReturned (sound : Sound s) {move : DispatchMove}
    (success : (s.step move).2 = some (.stopReturned .ok)) :
    s.dispatchPending = false ∧ s.task = .absent := by
  cases move with
  | call call =>
    dsimp only [step, DispatchService.call] at success
    repeat' split at success
    all_goals cases success
  | dispatcher =>
    dsimp only [step, dispatcherStep, readFlags]
      at success
    repeat' split at success
    all_goals cases success
  | raise =>
    dsimp only [step] at success
    split at success <;> cases success
  | give =>
    dsimp only [step] at success
    split at success <;> cases success
  | owner answer running =>
    have place := sound.place
    unfold AtPlace at place
    cases howner : s.owner with
    | finishing retrying result =>
      rw [howner] at place
      exact ⟨place.2.1.idle, place.2.2⟩
    | stoppingRuntime retrying =>
      unfold step ownerStep stopRuntime at success
      rw [howner] at success
      dsimp only at success
      split at success
      · cases success
      cases answer with
      | ok =>
        dsimp only at success
        split at success <;> cases success
      | _ => cases success
    | waking enqueue =>
      unfold step ownerStep at success
      rw [howner] at success
      cases enqueue <;> cases success
    | unmarking shutdown =>
      unfold step ownerStep at success
      rw [howner] at success
      cases shutdown <;> cases success
    | _ =>
      unfold step ownerStep at success
      rw [howner] at success
      dsimp only [DispatchService.abandon, startRuntime,
        pollQuiescence, request, pollExit] at success
      repeat' split at success
      all_goals cases success

/-! ### The strand -/

/-- The dispatcher has left its loop, is marked started, and something is pending. -/
structure Doomed (s : DispatchService) : Prop where
  started : s.dispatcherStarted = true
  pending : s.dispatchPending = true
  left : s.task.left

theorem doomed_owner (sound : Sound s) (doomed : Doomed s) (answer : ResultCode) (running : Bool) :
    Doomed (s.ownerStep answer running).1 := by
  have place := sound.place
  unfold AtPlace at place
  obtain ⟨started, pending, left⟩ := doomed
  have present : s.task ≠ .absent := by
    intro absent
    rw [absent] at left
    exact absurd left (by decide)
  have quiet : ¬ Quiet s := fun quiet => absurd (quiet.idle.symm.trans pending) (by simp)
  unfold ownerStep
  cases howner : s.owner with
  | starting =>
    rw [howner] at place
    exact absurd (place.unstarted.symm.trans started) (by simp)
  | claiming | draining | creating | abandoning =>
    rw [howner] at place
    exact absurd place.2.2.1 present
  | requesting | signalling | awaitingExit | deleting | unmarking | finishing =>
    rw [howner] at place
    first
      | exact absurd place.2 quiet
      | exact absurd place.2.1 quiet
  | raising enqueue => exact ⟨started, rfl, left⟩
  | waking enqueue => cases enqueue <;> exact ⟨started, pending, left⟩
  | awaitingRuntime =>
    dsimp only [startRuntime]
    repeat' split
    all_goals exact ⟨started, pending, left⟩
  | stoppingRuntime =>
    dsimp only [stopRuntime]
    repeat' split
    all_goals exact ⟨started, pending, left⟩
  | quiescing =>
    dsimp only [pollQuiescence]
    repeat' split
    all_goals exact ⟨started, pending, left⟩
  | destroying =>
    dsimp only
    split <;> exact ⟨started, pending, left⟩
  | _ => exact ⟨started, pending, left⟩

/-- **A doomed service** stays doomed. -/
theorem doomed_step (sound : Sound s) (doomed : Doomed s) (move : DispatchMove) :
    Doomed (s.step move).1 := by
  cases move with
  | owner answer running => exact doomed_owner sound doomed answer running
  | call call =>
    dsimp only [step, DispatchService.call]
    split
    · exact doomed
    cases call <;> dsimp only <;> split <;>
      exact ⟨doomed.started, doomed.pending, doomed.left⟩
  | dispatcher =>
    obtain ⟨started, pending, left⟩ := doomed
    dsimp only [step, dispatcherStep]
    rcases left with leaving | exiting | suspended
    · rw [leaving]
      exact ⟨started, pending, Or.inr (Or.inl rfl)⟩
    · rw [exiting]
      exact ⟨started, pending, Or.inr (Or.inr rfl)⟩
    · rw [suspended]
      exact ⟨started, pending, Or.inr (Or.inr suspended)⟩
  | raise =>
    dsimp only [step]
    split
    · exact ⟨doomed.started, rfl, doomed.left⟩
    · exact doomed
  | give =>
    dsimp only [step]
    split
    · exact doomed
    · exact ⟨doomed.started, doomed.pending, doomed.left⟩

/-- **A timely move** raises nothing behind a dispatcher that has left its loop. -/
theorem idle_step (sound : Sound s) (idle : s.task.left → s.dispatchPending = false)
    {move : DispatchMove} (timely : Timely (s, move)) :
    (s.step move).1.task.left → (s.step move).1.dispatchPending = false := by
  cases move with
  | call call =>
    dsimp only [step, DispatchService.call]
    repeat' split
    all_goals exact idle
  | dispatcher =>
    dsimp only [step, dispatcherStep, readFlags]
    cases htask : s.task with
    | taken =>
      dsimp only
      split
      · -- the loop is left only when nothing is pending
        rename_i exits
        simp only [Bool.and_eq_true, Bool.not_eq_true'] at exits
        exact fun _ => exits.2
      · split <;> exact fun left => absurd left (by simp [TaskPlace.left])
    | taking =>
      dsimp only
      split
      · exact fun left => absurd left (by simp [TaskPlace.left])
      · exact idle
    | dispatching | dispatched => exact fun left => absurd left (by simp [TaskPlace.left])
    | leaving | exiting =>
      rw [htask] at idle
      exact fun _ => idle (by decide)
    | absent | suspended => exact idle
  | raise =>
    dsimp only [step]
    split
    · -- the runtime runs only before the shutdown is requested
      rename_i runs
      intro left
      exact absurd ((sound.running runs).2.symm.trans (sound.left left)) (by simp)
    · exact idle
  | give =>
    dsimp only [step]
    split <;> exact idle
  | owner answer running =>
    have place := sound.place
    unfold AtPlace at place
    dsimp only [step, ownerStep]
    cases howner : s.owner with
    | starting =>
      dsimp only
      split
      · exact idle
      · exact fun _ => rfl
    | creating =>
      dsimp only
      split
      · exact fun left => absurd left (by simp [TaskPlace.left])
      · exact idle
    | raising enqueue =>
      cases enqueue with
      | start =>
        rw [howner] at place
        intro left
        exact absurd (place.2.2.symm.trans (sound.left left)) (by simp)
      | stop retrying => exact fun left => absurd left (timely rfl (by rw [howner]; rfl))
    | waking enqueue => cases enqueue <;> exact idle
    | deleting => exact fun left => absurd left (by simp [TaskPlace.left])
    | unmarking shutdown => cases shutdown <;> exact idle
    | claiming | destroying =>
      dsimp only
      split <;> exact idle
    | awaitingRuntime =>
      dsimp only [startRuntime]
      repeat' split
      all_goals exact idle
    | stoppingRuntime =>
      dsimp only [stopRuntime]
      repeat' split
      all_goals exact idle
    | quiescing =>
      dsimp only [pollQuiescence]
      repeat' split
      all_goals exact idle
    | requesting =>
      dsimp only [request]
      repeat' split
      all_goals exact idle
    | awaitingExit =>
      dsimp only [pollExit]
      repeat' split
      all_goals exact idle
    | _ => exact idle

/-! ### Runs -/

/-- The events of a run. -/
def dispatchEvents (s : DispatchService) (moves : List DispatchMove) : List DispatchEvent :=
  (Machine.trace step s moves).filterMap Prod.snd

theorem sound_run : Sound (Machine.after step {} moves) := by
  refine Machine.invariant (P := fun s _ => Sound s) sound_start ?_ moves
  exact fun s _ move sound => sound_step sound move

theorem dispatchEvents_snoc (s : DispatchService) (moves : List DispatchMove)
    (move : DispatchMove) :
    dispatchEvents s (moves ++ [move]) = dispatchEvents s moves ++
      ((Machine.after step s moves).step move).2.toList := by
  unfold dispatchEvents
  rw [Machine.trace_snoc, List.filterMap_append]
  cases hevent : ((Machine.after step s moves).step move).2 <;> simp

theorem promise_run :
    Promise (Machine.after step {} moves) (dispatchEvents {} moves) := by
  induction moves using List.reverseRecOn with
  | nil => exact since_nil _ _
  | append_singleton moves move ih =>
    rw [Machine.after_snoc, dispatchEvents_snoc]
    exact promise_step (sound_run moves) ih move

/-- What every stop that succeeded left behind. -/
theorem lawful_run :
    Lawful (fun before event => event = .stopReturned .ok → Since (· = .enqueued) Covered before)
      (dispatchEvents {} moves) := by
  induction moves using List.reverseRecOn with
  | nil => exact lawful_nil _
  | append_singleton moves move ih =>
    rw [dispatchEvents_snoc]
    cases hevent : ((Machine.after step {} moves).step move).2 with
    | none => simpa using ih
    | some event =>
      refine lawful_snoc.mpr ⟨ih, fun success => ?_⟩
      rw [success] at hevent
      obtain ⟨idle, absent⟩ := quiet_of_stopReturned (sound_run moves) hevent
      exact (promise_run moves).covered idle absent

theorem idle_run (timely : ∀ move ∈ Machine.moves step {} moves, Timely move) :
    (Machine.after step {} moves).task.left →
      (Machine.after step {} moves).dispatchPending = false := by
  induction moves using List.reverseRecOn with
  | nil => exact fun _ => rfl
  | append_singleton moves move ih =>
    rw [Machine.moves_snoc] at timely
    rw [Machine.after_snoc]
    refine idle_step (sound_run moves) (ih fun move hmove => ?_) ?_
    · exact timely move (List.mem_append_left _ hmove)
    · exact timely _ (List.mem_append_right _ (List.mem_singleton_self _))

/-- A stop that is not timely dooms the service. -/
theorem doomed_of_not_timely (sound : Sound s) {move : DispatchMove} (late : ¬ Timely (s, move)) :
    Doomed (s.step move).1 := by
  unfold Timely at late
  push Not at late
  obtain ⟨owner, stops, left⟩ := late
  have place := sound.place
  unfold AtPlace at place
  cases move with
  | owner answer running =>
    dsimp only [step, ownerStep]
    cases howner : s.owner with
    | raising enqueue =>
      rw [howner] at place stops
      cases enqueue with
      | start => cases stops
      | stop retrying => exact ⟨place.started, rfl, left⟩
    | _ =>
      rw [howner] at stops
      cases stops
  | _ => cases owner

/-- Nothing that happens to a doomed service helps. -/
theorem doomed_run (sound : Sound s) (doomed : Doomed s) (moves : List DispatchMove) :
    Sound (Machine.after step s moves) ∧
      Doomed (Machine.after step s moves) ∧
      .stopReturned .ok ∉ dispatchEvents s moves := by
  induction moves using List.reverseRecOn with
  | nil => exact ⟨sound, doomed, List.not_mem_nil⟩
  | append_singleton moves move ih =>
    obtain ⟨sound', doomed', unsuccessful⟩ := ih
    rw [Machine.after_snoc, dispatchEvents_snoc]
    refine ⟨sound_step sound' move, doomed_step sound' doomed' move, fun success => ?_⟩
    rcases List.mem_append.mp success with success | success
    · exact unsuccessful success
    · have idle := (quiet_of_stopReturned sound' (Option.mem_toList.mp success)).1
      exact absurd (idle.symm.trans doomed'.pending) (by simp)

/-- A dispatcher that has exited is not marked started with something pending, in a run whose
stops are timely. -/
theorem not_stranded (sound : Sound s) (idle : s.task.left → s.dispatchPending = false) :
    ¬ Stranded s := by
  rintro ⟨exited, started, pending⟩
  have place := sound.place
  have owned : s.task = .absent → s.dispatchPending = false := by
    intro absent
    unfold AtPlace at place
    have unworking : ¬ Working s := fun working => working.present absent
    cases howner : s.owner with rw [howner] at place
    | idle =>
      exact (place.resolve_right unworking).idle
    | destroying =>
      exact (place.1.resolve_right unworking).idle
    | starting =>
      exact place.idle
    | raising enqueue | waking enqueue =>
      cases enqueue with
      | start => exact absurd place.1 unworking
      | stop retrying => exact absurd place unworking
    | awaitingRuntime | stoppingRuntime =>
      exact absurd place unworking
    | destroyed =>
      exact absurd (place.symm.trans started) (by simp)
    | unmarking | finishing =>
      exact place.2.1.idle
    | claiming | draining | creating | abandoning | activating | enabling =>
      exact place.1.idle
    | _ =>
      exact absurd place.1 unworking
  by_cases absent : s.task = .absent
  · exact absurd ((owned absent).symm.trans pending) (by simp)
  · exact absurd ((idle (sound.exited started exited absent)).symm.trans pending) (by simp)

/-- **The laws of the dispatcher**. After every run a publication that is pending, when dispatching
is enabled, has a wakeup on its way; and every publication that was enqueued before a stop that
succeeded was followed by a dispatch pass before the dispatcher exited. If no stop of the run
enqueued after the dispatcher had left its loop, then the owner is not stranded. One that did so
strands the owner for good: in every continuation the dispatcher has left its loop, is marked
started, and something is pending, so that no stop succeeds and the destructor does not return. -/
theorem dispatcher_law (moves : List DispatchMove) :
    let s := Machine.after step {} moves
    Awake s ∧
    (∀ before after, dispatchEvents {} moves = before ++ .stopReturned .ok :: after →
      ∀ earlier between, before = earlier ++ .enqueued :: between → Covered between) ∧
    ((∀ move ∈ Machine.moves step {} moves, Timely move) → ¬ Stranded s) ∧
    ∀ late, ¬ Timely (s, late) → ∀ rest,
      let s' := Machine.after step (s.step late).1 rest
      Doomed s' ∧ (s'.task ≠ .leaving → Stranded s') ∧
        .stopReturned .ok ∉ dispatchEvents (s.step late).1 rest ∧ s'.owner ≠ .destroyed := by
  intro s
  have sound : Sound s := sound_run moves
  refine ⟨sound.awake, fun before after split earlier between enqueued => ?_, fun timely => ?_,
    fun late untimely rest => ?_⟩
  · exact lawful_run moves before _ after split rfl earlier _ between enqueued rfl
  · exact not_stranded sound (idle_run moves timely)
  · have doomed := doomed_of_not_timely sound untimely
    obtain ⟨sound', doomed', unsuccessful⟩ := doomed_run (sound_step sound late) doomed rest
    refine ⟨doomed', fun unfinished => ?_, unsuccessful, fun destroyed => ?_⟩
    · have exited := sound'.marked (doomed'.left.resolve_left unfinished)
      exact ⟨exited, doomed'.started, doomed'.pending⟩
    · have place := sound'.place
      unfold AtPlace at place
      rw [destroyed] at place
      exact absurd (place.symm.trans doomed'.started) (by simp)

/-- A start, a frame, and a stop that succeeds. -/
theorem dispatcher_law_stop :
    let next : DispatchMove := .owner .ok false
    let moves := .call .start :: List.replicate 10 next ++ [.raise, .give] ++
      List.replicate 4 .dispatcher ++ .call .stop :: List.replicate 2 next ++
      List.replicate 4 .dispatcher ++ List.replicate 4 next ++ List.replicate 4 .dispatcher ++
      List.replicate 4 next
    .stopReturned .ok ∈ dispatchEvents {} moves ∧
      ¬ Stranded (Machine.after step {} moves) := by
  intro next moves
  exact ⟨by decide +kernel, (dispatcher_law moves).2.2.1 (by decide +kernel)⟩

/-- A stop requests the shutdown and gives up while the dispatcher does not run; the dispatcher
exits, and the stop is retried. -/
def retriedStop : List DispatchMove :=
  let next : DispatchMove := .owner .ok false
  .call .start :: List.replicate 10 next ++ List.replicate 4 .dispatcher ++
    .call .stop :: List.replicate 2 next ++ List.replicate 4 .dispatcher ++
    List.replicate (4 + (kDispatchQuiescenceTimeoutMs + 1)) next ++
    List.replicate 4 .dispatcher ++ [.call .stop, next]

/-- **A retried stop** can strand the owner. -/
theorem retriedStop_strands :
    Stranded (Machine.after step {} retriedStop) ∧
      dispatchEvents {} retriedStop =
        [.enqueued, .startReturned .ok, .passBegan, .passEnded, .enqueued, .passBegan, .passEnded,
          .stopReturned .timeout, .exited, .enqueued] := by
  decide +kernel

end AccessoryController.ProfileRuntime
