import AccessoryController.Library.Machine
import AccessoryController.Replay.ControllerLifecycle

/-!
# Replay output always ends failed off

Whatever the output stage, the engine, the observers and telemetry answer, a controller that is
not running has failed the stage off as its last word to it, up to the release that follows. What
carries the argument is the record of stage calls: no call after a fail-off lights anything, a
running controller has not failed off yet, and a failed or stopped one ends with a fail-off.

## Main definitions

* `Quiet`: after a fail-off the stage is neither started nor ticked
* `EndsOff`, `EndsReleased`: how a record of stage calls ends
* `Sound`: the invariant of the controller between two calls

## Main results

* `Implementation.sound_step`: every call keeps the invariant
* `Implementation.stop_spec`: a stop of an active controller releases the stage
* `Implementation.output_ends_failed_off`: what holds after every run and at destruction
-/

namespace AccessoryController.Replay

open VehicleCore
open Mazda (LifecycleState)

/-! ### Records of stage calls -/

/-- After a fail-off nothing starts the stage or ticks it. -/
def Quiet (output : List StageCall) : Prop :=
  output.Pairwise fun earlier later => earlier = .failOff → later ≠ .tick ∧ later ≠ .start

/-- The last words are a fail-off and the release that follows it. -/
def EndsReleased (output : List StageCall) : Prop :=
  ∃ earlier, output = earlier ++ [.failOff, .stop]

/-- The last call is a fail-off, or the release that follows one. -/
def EndsOff (output : List StageCall) : Prop :=
  (∃ earlier, output = earlier ++ [.failOff]) ∨ EndsReleased output

variable {output : List StageCall}

theorem Quiet.off (quiet : Quiet output) : Quiet (output ++ [.failOff]) := by
  refine List.pairwise_append.2 ⟨quiet, List.pairwise_singleton _ _, ?_⟩
  intro earlier _ later mem _
  rw [List.mem_singleton.1 mem]
  exact ⟨by simp, by simp⟩

theorem Quiet.release (quiet : Quiet output) : Quiet (output ++ [.failOff, .stop]) := by
  refine List.pairwise_append.2 ⟨quiet, by simp, ?_⟩
  intro earlier _ later mem _
  rcases List.mem_pair.1 mem with rfl | rfl
  · exact ⟨by simp, by simp⟩
  · exact ⟨by simp, by simp⟩

/-- What has not failed off yet may still be started and ticked. -/
theorem quiet_of_lit (lit : .failOff ∉ output) : Quiet output :=
  List.Pairwise.imp_of_mem (fun {_ _} mem _ _ off => absurd (off ▸ mem) lit)
    (List.pairwise_of_forall (R := fun _ _ => True) fun _ _ => trivial)

theorem endsOff_off (output : List StageCall) : EndsOff (output ++ [.failOff]) :=
  Or.inl ⟨output, rfl⟩

theorem endsReleased_release (output : List StageCall) :
    EndsReleased (output ++ [.failOff, .stop]) := ⟨output, rfl⟩

namespace Implementation

variable {P : Type} {parts : Parts P} {synchronizationTimeoutUs : Microseconds}
  {c : Implementation P}

/-! ### What each operation does to the record -/

@[simp] theorem failOffOutput_output :
    (c.failOffOutput parts).2.output = c.output ++ [.failOff] := rfl

@[simp] theorem failOffOutput_state : (c.failOffOutput parts).2.state = c.state := rfl

@[simp] theorem failOffOutput_detachments :
    (c.failOffOutput parts).2.detachments = c.detachments := rfl

@[simp] theorem releaseOutput_output :
    (c.releaseOutput parts).2.output = c.output ++ [.failOff, .stop] :=
  List.append_assoc _ _ _

@[simp] theorem releaseOutput_state : (c.releaseOutput parts).2.state = c.state := rfl

@[simp] theorem releaseOutput_detachments :
    (c.releaseOutput parts).2.detachments = c.detachments := rfl

@[simp] theorem tickCurrent_output :
    (c.tickCurrent parts).2.output = c.output ++ [.tick] := rfl

@[simp] theorem tickCurrent_state : (c.tickCurrent parts).2.state = c.state := rfl

@[simp] theorem tickCurrent_detachments :
    (c.tickCurrent parts).2.detachments = c.detachments := rfl

/-- An operation that leaves the stage and the subscriptions alone. -/
structure Untouched (before after : Implementation P) : Prop where
  output : after.output = before.output
  detachments : after.detachments = before.detachments
  state : after.state = before.state

theorem untouched_lifecycle : Untouched c (c.lifecycle parts).2 := by
  unfold lifecycle
  split <;> exact ⟨rfl, rfl, rfl⟩

/-- The lifecycle that was read is the one telemetry is left in. -/
theorem lifecycle_telemetry : (c.lifecycle parts).2.telemetry = (c.lifecycle parts).1 := by
  unfold lifecycle
  split
  · assumption
  · rfl

/-- The engine is attached without a word to the stage. -/
theorem engineAttach_untouched :
    Untouched c (c.engineAttach parts).2 ∧ (c.engineAttach parts).2.telemetry = c.telemetry := by
  unfold engineAttach
  split <;> exact ⟨⟨rfl, rfl, rfl⟩, rfl⟩

/-- What a change of subscriptions leaves alone: each detach is recorded with the lifecycle that
telemetry had. -/
structure Unsubscribed (before after : Implementation P) : Prop where
  output : after.output = before.output
  state : after.state = before.state
  telemetry : after.telemetry = before.telemetry
  recorded : before.detachments <+: after.detachments
  detachments : ∀ d ∈ after.detachments, d ∈ before.detachments ∨ d = before.telemetry

theorem Unsubscribed.refl (c : Implementation P) : Unsubscribed c c :=
  ⟨rfl, rfl, rfl, List.prefix_rfl, fun _ mem => Or.inl mem⟩

theorem Unsubscribed.trans {a b : Implementation P} (first : Unsubscribed a b)
    (second : Unsubscribed b c) : Unsubscribed a c where
  output := second.output.trans first.output
  state := second.state.trans first.state
  telemetry := second.telemetry.trans first.telemetry
  recorded := first.recorded.trans second.recorded
  detachments := by
    intro d mem
    rcases second.detachments d mem with earlier | now
    · exact first.detachments d earlier
    · exact Or.inr (now.trans first.telemetry)

theorem mem_detachments_snoc {d : LifecycleState}
    (mem : d ∈ c.detachments ++ [c.telemetry]) : d ∈ c.detachments ∨ d = c.telemetry := by
  simpa using mem

theorem unsubscribed_engineDetach : Unsubscribed c (c.engineDetach parts) :=
  ⟨rfl, rfl, rfl, List.prefix_append _ _, fun _ mem => mem_detachments_snoc mem⟩

theorem unsubscribed_observersDetach : Unsubscribed c (c.observersDetach parts) :=
  ⟨rfl, rfl, rfl, List.prefix_append _ _, fun _ mem => mem_detachments_snoc mem⟩

theorem unsubscribed_observersAttach : Unsubscribed c (c.observersAttach parts).2 := by
  unfold observersAttach
  split
  · exact Unsubscribed.refl c
  · split
    · exact ⟨rfl, rfl, rfl, List.prefix_rfl, fun _ mem => Or.inl mem⟩
    · dsimp only
      split
      · exact ⟨rfl, rfl, rfl, List.prefix_rfl, fun _ mem => Or.inl mem⟩
      · exact ⟨rfl, rfl, rfl, List.prefix_append _ _, fun _ mem => mem_detachments_snoc mem⟩

theorem unsubscribed_detachSignalConsumers :
    Unsubscribed c (c.detachSignalConsumers parts) := by
  have engine : Unsubscribed c (if c.engineAttached then c.engineDetach parts else c) := by
    split
    · exact unsubscribed_engineDetach
    · exact Unsubscribed.refl c
  refine engine.trans ?_
  unfold detachSignalConsumers
  dsimp only
  generalize (if c.engineAttached then c.engineDetach parts else c) = d
  split
  · exact unsubscribed_observersDetach
  · exact Unsubscribed.refl d

/-! ### The invariant -/

/-- The record of the controller so far: no light after a fail-off, and no change of subscriptions
while telemetry was going. -/
structure Orderly (c : Implementation P) : Prop where
  quiet : Quiet c.output
  detached : ∀ d ∈ c.detachments, d = .stopped

/-- The invariant between two calls. -/
structure Sound (c : Implementation P) : Prop extends Orderly c where
  ready : c.state = .ready → c.output = [] ∧ c.telemetry = .stopped
  settled : c.state ≠ .starting
  lit : c.state = .running → .failOff ∉ c.output
  off : c.state = .failed → EndsOff c.output
  released : c.state = .stopped → EndsReleased c.output

theorem Untouched.orderly {d : Implementation P} (same : Untouched c d) (orderly : Orderly c) :
    Orderly d :=
  ⟨same.output ▸ orderly.quiet, same.detachments ▸ orderly.detached⟩

/-- Subscriptions that change while telemetry is stopped keep the record orderly. -/
theorem Unsubscribed.orderly {d : Implementation P} (changed : Unsubscribed c d)
    (stopped : c.telemetry = .stopped) (orderly : Orderly c) : Orderly d where
  quiet := changed.output ▸ orderly.quiet
  detached := by
    intro e mem
    rcases changed.detachments e mem with earlier | now
    · exact orderly.detached e earlier
    · exact now.trans stopped

section

variable (orderly : Orderly c)
include orderly

theorem Orderly.off : Orderly (c.failOffOutput parts).2 :=
  ⟨orderly.quiet.off, orderly.detached⟩

theorem Orderly.release : Orderly (c.releaseOutput parts).2 :=
  ⟨releaseOutput_output (c := c) ▸ orderly.quiet.release, orderly.detached⟩

theorem sound_of_failed (failed : c.state = .failed) (off : EndsOff c.output) : Sound c where
  toOrderly := orderly
  ready := by simp [failed]
  settled := by simp [failed]
  lit := by simp [failed]
  off := fun _ => off
  released := by simp [failed]

theorem sound_of_stopped (stopped : c.state = .stopped) (released : EndsReleased c.output) :
    Sound c where
  toOrderly := orderly
  ready := by simp [stopped]
  settled := by simp [stopped]
  lit := by simp [stopped]
  off := by simp [stopped]
  released := fun _ => released

theorem sound_of_running (running : c.state = .running) (lit : .failOff ∉ c.output) : Sound c where
  toOrderly := orderly
  ready := by simp [running]
  settled := by simp [running]
  lit := fun _ => lit
  off := by simp [running]
  released := by simp [running]

end

/-- A change elsewhere keeps the invariant. -/
theorem Sound.elsewhere (sound : Sound c) (p : P) : Sound { c with parts := p } := by
  obtain ⟨⟨quiet, detached⟩, ready, settled, lit, off, released⟩ := sound
  exact ⟨⟨quiet, detached⟩, ready, settled, lit, off, released⟩

theorem sound_construct (start : P) : Sound (construct parts start) where
  quiet := List.Pairwise.nil
  detached := by intro d mem; cases mem
  ready := fun _ => ⟨rfl, rfl⟩
  settled := by simp [construct]
  lit := by simp [construct]
  off := by simp [construct]
  released := by simp [construct]

/-! ### Each call keeps it -/

/-- A failure leaves the controller failed and the stage off. -/
theorem sound_fail (orderly : Orderly c) (status : ReplayControllerStatus) :
    Sound (c.fail parts status).2 := by
  refine sound_of_failed ?_ rfl (endsOff_off c.output)
  exact ⟨orderly.quiet.off, orderly.detached⟩

theorem sound_abandonStart (orderly : Orderly c) : Sound (c.abandonStart parts) := by
  refine sound_of_stopped ?_ rfl ?_
  · have released : Orderly (c.releaseOutput parts).2 := orderly.release
    exact ⟨released.quiet, released.detached⟩
  · exact releaseOutput_output (c := c) ▸ endsReleased_release c.output

/-- Telemetry that was read as stopped gives up its subscribers, otherwise they stay. -/
theorem orderly_quiesce (orderly : Orderly c) {quiescent : Bool}
    (stopped : quiescent = true → c.telemetry = .stopped) :
    Orderly (if quiescent then c.detachSignalConsumers parts else c) := by
  split
  · next isQuiescent =>
    exact unsubscribed_detachSignalConsumers.orderly (stopped isQuiescent) orderly
  · exact orderly

theorem sound_cleanupFailedStart (orderly : Orderly c) :
    Sound (c.cleanupFailedStart parts) := by
  unfold cleanupFailedStart
  extract_lets cancelled before halted after quiescent detached state final
  have first : Orderly before.2 :=
    untouched_lifecycle.orderly (c := cancelled) ⟨orderly.quiet, orderly.detached⟩
  have second : Orderly halted := by
    dsimp only [halted]
    split
    · exact ⟨first.quiet, first.detached⟩
    · exact first
  have third : Orderly after.2 := untouched_lifecycle.orderly second
  have fourth : Orderly detached := by
    refine orderly_quiesce third fun isQuiescent => ?_
    exact lifecycle_telemetry.trans (of_decide_eq_true isQuiescent)
  have last : Orderly final := ⟨fourth.quiet, fourth.detached⟩
  split
  · next stopped => exact sound_of_stopped last.release stopped ⟨_, releaseOutput_output⟩
  · next notStopped =>
    refine sound_of_failed last.off ?_ (endsOff_off _)
    have either : state = .stopped ∨ state = .failed := by
      dsimp only [state]
      split
      · exact Or.inl rfl
      · exact Or.inr rfl
    exact either.resolve_left notStopped

theorem stop_of_idle (idle : ¬(c.state = .running ∨ c.state = .failed)) :
    c.stop parts = (.invalidState, c) := by
  have rejected : c.state ≠ .running ∧ c.state ≠ .failed := not_or.1 idle
  rw [stop, if_pos rejected]

/-- What a stop of a controller that is running or failed does: the stage is released. -/
structure Stops (before after : Implementation P) : Prop where
  output : after.output = before.output ++ [.failOff, .stop]
  recorded : before.detachments <+: after.detachments
  orderly : Orderly after
  settled : after.state = .failed ∨ after.state = .stopped

theorem Stops.ends {d : Implementation P} (stops : Stops c d) : EndsReleased d.output :=
  ⟨c.output, stops.output⟩

theorem stop_spec (orderly : Orderly c) (active : c.state = .running ∨ c.state = .failed) :
    Stops c (c.stop parts).2 := by
  have admitted : ¬(c.state ≠ .running ∧ c.state ≠ .failed) := by
    rintro ⟨notRunning, notFailed⟩
    exact active.elim notRunning notFailed
  unfold stop
  rw [if_neg admitted]
  extract_lets cancelled telemetry after quiescent detached output final
  have read : Orderly after.2 := by
    refine untouched_lifecycle.orderly (c := telemetry.2) ?_
    exact ⟨orderly.quiet, orderly.detached⟩
  have left : Orderly detached := by
    refine orderly_quiesce read fun isQuiescent => ?_
    exact lifecycle_telemetry.trans (of_decide_eq_true isQuiescent)
  have released : Orderly final := left.release
  have same : Untouched telemetry.2 after.2 := untouched_lifecycle
  have kept : detached.output = c.output ∧ c.detachments <+: detached.detachments := by
    dsimp only [detached]
    split
    · have gone : Unsubscribed after.2 (after.2.detachSignalConsumers parts) :=
        unsubscribed_detachSignalConsumers
      exact ⟨gone.output.trans same.output, same.detachments ▸ gone.recorded⟩
    · exact ⟨same.output, same.detachments ▸ List.prefix_rfl⟩
  have output : final.output = c.output ++ [.failOff, .stop] := by
    rw [← kept.1]
    exact releaseOutput_output
  split
  · exact ⟨output, kept.2, ⟨released.quiet, released.detached⟩, Or.inl rfl⟩
  · exact ⟨output, kept.2, ⟨released.quiet, released.detached⟩, Or.inr rfl⟩

section

variable (sound : Sound c)
include sound

theorem sound_stop : Sound (c.stop parts).2 := by
  by_cases active : c.state = .running ∨ c.state = .failed
  · have stops : Stops c (c.stop parts).2 := stop_spec sound.toOrderly active
    rcases stops.settled with failed | stopped
    · exact sound_of_failed stops.orderly failed (Or.inr stops.ends)
    · exact sound_of_stopped stops.orderly stopped stops.ends
  · rw [stop_of_idle active]
    exact sound

/-- The stage calls of a start before anything failed light the stage at most. -/
theorem sound_start : Sound (c.start parts synchronizationTimeoutUs).2 := by
  unfold start
  by_cases ready : c.state ≠ .ready
  · rw [if_pos ready]
    exact sound
  obtain ⟨silent, idle⟩ := sound.ready (not_not.1 ready)
  rw [if_neg ready]
  split
  · exact sound
  extract_lets starting started called attached engaged unwound observing observed telemetry going
    drained current ticked lit
  -- The stage was called once; subscriptions change only before telemetry is started.
  have one : called.output = [.start] := congrArg (· ++ [StageCall.start]) silent
  have calledOrderly : Orderly called := by
    refine ⟨?_, sound.detached⟩
    rw [one]
    exact List.pairwise_singleton _ _
  split
  · exact sound_abandonStart calledOrderly
  split
  · exact sound_abandonStart calledOrderly
  obtain ⟨same, stillIdle⟩ :
      Untouched called engaged ∧ engaged.telemetry = called.telemetry := engineAttach_untouched
  have engagedIdle : engaged.telemetry = .stopped := stillIdle.trans idle
  have engagedOrderly : Orderly engaged := same.orderly calledOrderly
  split
  · refine sound_abandonStart ?_
    dsimp only [unwound]
    split
    · exact unsubscribed_engineDetach.orderly engagedIdle engagedOrderly
    · exact engagedOrderly
  have watching : Unsubscribed engaged observed := unsubscribed_observersAttach
  have observedOrderly : Orderly observed := watching.orderly engagedIdle engagedOrderly
  split
  · exact sound_cleanupFailedStart observedOrderly
  have goingOrderly : Orderly going := ⟨observedOrderly.quiet, observedOrderly.detached⟩
  split
  · exact sound_cleanupFailedStart goingOrderly
  have currentOrderly : Orderly current := ⟨goingOrderly.quiet, goingOrderly.detached⟩
  split
  · exact sound_cleanupFailedStart currentOrderly
  have two : lit.output = [.start, .tick] := by
    have chain : current.output = [.start] :=
      watching.output.trans (same.output.trans one)
    exact congrArg (· ++ [StageCall.tick]) chain
  have dark : .failOff ∉ lit.output := by
    rw [two]
    decide
  have litOrderly : Orderly lit := ⟨quiet_of_lit dark, currentOrderly.detached⟩
  split
  · exact sound_cleanupFailedStart litOrderly
  · exact sound_of_running ⟨litOrderly.quiet, litOrderly.detached⟩ rfl dark

theorem sound_processInput (grant : Grant) :
    Sound (c.processInput parts synchronizationTimeoutUs grant).2 := by
  have orderly := sound.toOrderly
  -- Every exit either leaves the record as it was or fails the stage off.
  have failed (p : P) (status : ReplayControllerStatus) :
      Sound ({ c with parts := p }.failStep parts status).2 :=
    sound_fail (c := { c with parts := p }) ⟨orderly.quiet, orderly.detached⟩ status
  unfold processInput
  split
  · exact sound
  extract_lets epoch prepared
  split
  · exact failed _ _
  · extract_lets granted _ completed _ drained current
    split
    · exact failed _ _
    split
    · exact failed _ _
    split
    · exact failed _ _
    split
    · exact sound.elsewhere _
    · exact sound.elsewhere _
    · exact failed _ _
    · exact failed _ _

theorem sound_processNextFrame : Sound (c.processNextFrame parts synchronizationTimeoutUs).2 := by
  unfold processNextFrame
  split
  · exact sound
  split
  · exact sound
  · exact sound_processInput sound .receive

theorem sound_sample (operation : P → Bool × P) : Sound (c.sample parts operation).2 := by
  unfold sample
  split
  · exact sound
  extract_lets sampled after
  split
  · exact sound.elsewhere _
  · exact sound_fail (c := after) ⟨sound.quiet, sound.detached⟩ _

theorem sound_tickOutput : Sound (c.tickOutput parts).2 := by
  unfold tickOutput
  split
  · exact sound
  next running =>
    extract_lets ticked
    have isRunning : c.state = .running := not_not.1 running
    have dark : .failOff ∉ ticked.2.output := by
      simpa [ticked] using sound.lit isRunning
    have orderly : Orderly ticked.2 := ⟨quiet_of_lit dark, sound.detached⟩
    split
    · exact sound_of_running orderly isRunning dark
    · exact sound_fail orderly _

/-- **Every call of the controller keeps the invariant.** -/
theorem sound_step (call : ControllerCall P) :
    Sound (c.step parts synchronizationTimeoutUs call).1 := by
  cases call with
  | start => exact sound_start sound
  | processNextFrame => exact sound_processNextFrame sound
  | processTimeout => exact sound_processInput sound .timeout
  | processSourceFault => exact sound_processInput sound .fault
  | samplePolledRules => exact sound_sample sound _
  | sampleSignals => exact sound_sample sound _
  | tickOutput => exact sound_tickOutput sound
  | stop => exact sound_stop sound
  | meanwhile change => exact sound.elsewhere _

end

theorem sound_after (start : P) (calls : List (ControllerCall P)) :
    Sound (Machine.after (step parts synchronizationTimeoutUs) (construct parts start) calls) :=
  Machine.invariant (P := fun c _ => Sound c) (sound_construct start)
    (fun _ _ call sound => sound_step sound call) calls

/-! ### The end of a controller -/

/-- How the output of a controller stands, and how its destruction leaves it. -/
structure EndsFailedOff (parts : Parts P) (c : Implementation P) : Prop where
  /-- A controller that is not running has failed off the stage it called. -/
  off : c.output ≠ [] → c.running = false → EndsOff c.output
  /-- A destroyed controller has failed off and released the stage it called. -/
  released : c.output ≠ [] → EndsReleased (c.destroy parts).output
  /-- No tick after a fail-off, and no start. -/
  quiet : Quiet (c.destroy parts).output
  /-- The engine and the observers were detached only while telemetry was stopped. -/
  detached : ∀ lifecycle ∈ (c.destroy parts).detachments, lifecycle = .stopped
  /-- The destruction adds to the record. -/
  recorded : c.output <+: (c.destroy parts).output ∧
    c.detachments <+: (c.destroy parts).detachments

/-- A retry of a stop that had settled changes nothing for the worse. -/
theorem stops_retry {d : Implementation P} (stops : Stops c d) :
    EndsReleased (d.stop parts).2.output ∧ Orderly (d.stop parts).2 ∧
      c.output <+: (d.stop parts).2.output ∧ c.detachments <+: (d.stop parts).2.detachments := by
  have earlier : c.output <+: d.output := stops.output ▸ List.prefix_append _ _
  by_cases active : d.state = .running ∨ d.state = .failed
  · have again : Stops d (d.stop parts).2 := stop_spec stops.orderly active
    have later : d.output <+: (d.stop parts).2.output := again.output ▸ List.prefix_append _ _
    exact ⟨again.ends, again.orderly, earlier.trans later, stops.recorded.trans again.recorded⟩
  · rw [stop_of_idle active]
    exact ⟨stops.ends, stops.orderly, earlier, stops.recorded⟩

/-- The destructor releases whatever is still running or failed. -/
theorem destroy_of_active (active : c.state = .running ∨ c.state = .failed)
    (orderly : Orderly c) :
    EndsReleased (c.destroy parts).output ∧ Orderly (c.destroy parts) ∧
      c.output <+: (c.destroy parts).output ∧
      c.detachments <+: (c.destroy parts).detachments := by
  have first : Stops c (c.stop parts).2 := stop_spec orderly active
  rw [destroy, if_pos active]
  dsimp only
  split
  · exact stops_retry first
  · exact ⟨first.ends, first.orderly, first.output ▸ List.prefix_append _ _, first.recorded⟩

theorem endsFailedOff_of_sound (sound : Sound c) : EndsFailedOff parts c := by
  by_cases active : c.state = .running ∨ c.state = .failed
  · obtain ⟨ends, orderly, output, detachments⟩ : EndsReleased (c.destroy parts).output ∧
        Orderly (c.destroy parts) ∧ c.output <+: (c.destroy parts).output ∧
        c.detachments <+: (c.destroy parts).detachments := destroy_of_active active sound.toOrderly
    refine ⟨?_, fun _ => ends, orderly.quiet, orderly.detached, output, detachments⟩
    intro _ notRunning
    exact sound.off (active.resolve_left (of_decide_eq_false notRunning))
  · have same : c.destroy parts = c := by rw [destroy, if_neg active]
    have released (called : c.output ≠ []) : EndsReleased c.output := by
      obtain ⟨notRunning, notFailed⟩ := not_or.1 active
      cases state : c.state with
      | ready => exact absurd (sound.ready state).1 called
      | starting => exact absurd state sound.settled
      | running => exact absurd state notRunning
      | failed => exact absurd state notFailed
      | stopped => exact sound.released state
    refine ⟨fun called _ => Or.inr (released called), ?_, ?_, ?_, ?_⟩
    · rw [same]
      exact released
    · rw [same]
      exact sound.quiet
    · rw [same]
      exact sound.detached
    · rw [same]
      exact ⟨List.prefix_rfl, List.prefix_rfl⟩

/-- **Replay output ends failed off**: after every run of calls, whatever the collaborators
answered. -/
theorem output_ends_failed_off (parts : Parts P) (synchronizationTimeoutUs : Microseconds)
    (start : P) (calls : List (ControllerCall P)) :
    EndsFailedOff parts
      (Machine.after (step parts synchronizationTimeoutUs) (construct parts start) calls) :=
  endsFailedOff_of_sound (sound_after start calls)

end Implementation

end AccessoryController.Replay
