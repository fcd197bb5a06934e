import AccessoryController.Replay.PacerLaw
import AccessoryController.Replay.ScheduleLaw

/-!
# Replays behind a gate

A gate holds the time of a replay back, or interrupts it, and keeps a state of its own. It may look
at the collaborators but does not act on them. A replay behind a gate does what the same replay does
without one, until the gate refuses a time. Whatever the collaborators answer, a replay returns: a
round that does not fail delivers a frame or serves a cadence, and none is due for ever.

## Main definitions

* `Stages.withGate`, `Stages.ungated`: the same collaborators with a gate and without one
* `Run.forget`: a run without the state of its gate
* `Run.left`: the work that is left to a run

## Main results

* `iteration_forget`: a round behind a gate is a round without one, or the gate refused it
* `loop_returns`: the loop ends, whatever its collaborators answer
* `gated_replay`: the events behind a gate are a prefix of those without one
* `playback_pacing`: the spans, the pacer and the gate of a playback
-/

namespace AccessoryController.Replay

open VehicleCore PlaybackSession

variable {P G : Type}

/-- Collaborators that leave the state of a gate alone. -/
def beside {α : Type} (operation : P → α × P) (state : P × G) : α × (P × G) :=
  ((operation state.1).1, ((operation state.1).2, state.2))

/-- The collaborators behind a gate, which may look at them. -/
def Stages.withGate (stages : Stages P) (gate : MonotonicTimestamp → P → G → Bool × G) :
    Stages (P × G) where
  tickPeriodUs := stages.tickPeriodUs
  observed := stages.observed
  gate := some fun now state =>
    ((gate now state.1 state.2).1, (state.1, (gate now state.1 state.2).2))
  start := fun now => beside (stages.start now)
  publish := fun now status frame => beside (stages.publish now status frame)
  samplePolledRules := fun now => beside (stages.samplePolledRules now)
  sampleSignals := fun now => beside (stages.sampleSignals now)
  tick := fun now => beside (stages.tick now)
  failOff := fun now => beside (stages.failOff now)
  stop := fun now => beside (stages.stop now)
  stopTelemetry := beside stages.stopTelemetry

/-- The collaborators without a gate. -/
def Stages.ungated (stages : Stages P) : Stages P := { stages with gate := none }

/-- A controller without the state of the gate. -/
def ReplayController.forget (c : ReplayController (P × G)) : ReplayController P :=
  { c with stages := c.stages.1 }

/-- A run without the state of its gate. -/
def Run.forget (r : Run (P × G)) : Run P := { r with controller := r.controller.forget }

/-! ### The controller behind a gate -/

namespace ReplayController

variable (stages : Stages P) (gate : MonotonicTimestamp → P → G → Bool × G)
  (now : MonotonicTimestamp) (c : ReplayController (P × G))

theorem forget_fail (status : ReplayControllerStatus) :
    Prod.map id forget (c.fail (stages.withGate gate) now status) =
      c.forget.fail stages.ungated now status := rfl

theorem forget_gatedReceive (grant : Grant) :
    Prod.map id forget (c.gatedReceive now grant) = c.forget.gatedReceive now grant := by
  cases grant <;> rfl

theorem forget_processInput (grant : Grant) :
    Prod.map id forget (c.processInput (stages.withGate gate) now grant) =
      c.forget.processInput stages.ungated now grant := by
  have received := forget_gatedReceive now c grant
  unfold processInput
  split
  · rename_i off
    exact (if_pos off).symm
  · rename_i running
    refine Eq.trans ?_ (if_neg running).symm
    rw [← received]
    generalize c.gatedReceive now grant = given
    obtain ⟨⟨answer, frame⟩, after⟩ := given
    dsimp only [Prod.map, id, Stages.withGate, Stages.ungated, beside, forget]
    split
    · rfl
    · cases answer <;> rfl

theorem forget_processNextFrame :
    Prod.map id forget (c.processNextFrame (stages.withGate gate) now) =
      c.forget.processNextFrame stages.ungated now := by
  unfold processNextFrame
  rw [apply_ite (Prod.map id forget), apply_ite (Prod.map id forget), forget_processInput]
  rfl

theorem forget_processTimeout :
    Prod.map id forget (c.processTimeout (stages.withGate gate) now) =
      c.forget.processTimeout stages.ungated now :=
  forget_processInput stages gate now c .timeout

theorem forget_operate (operation : MonotonicTimestamp → P → Bool × P)
    (status : ReplayControllerStatus) :
    Prod.map id forget (c.operate (stages.withGate gate) now (fun now => beside (operation now))
      status) = c.forget.operate stages.ungated now operation status := by
  unfold operate
  rw [apply_ite (Prod.map id forget), apply_ite (Prod.map id forget), forget_fail]
  rfl

theorem forget_start :
    Prod.map id forget (c.start (stages.withGate gate) now) =
      c.forget.start stages.ungated now := by
  unfold start
  rw [apply_ite (Prod.map id forget)]
  rfl

theorem forget_stop :
    Prod.map id forget (c.stop (stages.withGate gate) now) =
      c.forget.stop stages.ungated now := by
  unfold stop
  rw [apply_ite (Prod.map id forget), apply_ite (Prod.map id forget)]
  rfl

end ReplayController

/-! ### A round behind a gate -/

variable {work : Run (P × G) → Run (P × G)} {operation : MonotonicTimestamp → P → Bool × P}

namespace Run

variable (stages : Stages P) (gate : MonotonicTimestamp → P → G → Bool × G)
  (options : ReplayScheduleOptions) (cadences : Cadences) (due : MonotonicTimestamp)
  (r : Run (P × G))

theorem forget_whenOk {bare : Run P → Run P} (same : ∀ r, (work r).forget = bare r.forget) :
    (r.whenOk work).forget = r.forget.whenOk bare := by
  unfold whenOk
  rw [apply_ite forget, same]
  rfl

theorem forget_advance : (r.advance due).forget = r.forget.advance due := by
  unfold advance
  rw [apply_ite forget, apply_ite forget]
  rfl

theorem forget_deliverFrame : (r.deliverFrame (stages.withGate gate) due).forget =
    r.forget.deliverFrame stages.ungated due := by
  have step : r.forget.controller.processNextFrame stages.ungated r.forget.now = _ :=
    (ReplayController.forget_processNextFrame stages gate r.now r.controller).symm
  unfold deliverFrame
  rw [step]
  rw [apply_ite forget]
  rfl

theorem forget_deliverFrames (rounds : ℕ) :
    (deliverFrames (stages.withGate gate) due rounds r).forget =
      deliverFrames stages.ungated due rounds r.forget := by
  induction rounds generalizing r with
  | zero => rfl
  | succ rounds ih =>
    unfold deliverFrames
    rw [apply_ite forget, forget_whenOk _ ih, forget_deliverFrame]
    rfl

theorem forget_endStream : (r.endStream (stages.withGate gate) due).forget =
    r.forget.endStream stages.ungated due := by
  have step : r.forget.controller.processNextFrame stages.ungated r.forget.now = _ :=
    (ReplayController.forget_processNextFrame stages gate r.now r.controller).symm
  unfold endStream
  rw [step]
  rw [apply_ite forget, apply_ite forget]
  rfl

theorem forget_serviceAvailability :
    (r.serviceAvailability (stages.withGate gate) options due).forget =
      r.forget.serviceAvailability stages.ungated options due := by
  have step : r.forget.controller.processTimeout stages.ungated r.forget.now = _ :=
    (ReplayController.forget_processTimeout stages gate r.now r.controller).symm
  unfold serviceAvailability
  rw [step]
  rw [apply_ite forget, apply_ite forget]
  rfl

theorem forget_operated {status : ReplayControllerStatus} {bare : Run P → Run P}
    (same : ∀ r, (work r).forget = bare r.forget) :
    (r.operated (r.controller.operate (stages.withGate gate) r.now
      (fun now => beside (operation now)) status) work).forget =
      r.forget.operated (r.forget.controller.operate stages.ungated r.forget.now operation status)
        bare := by
  have step : r.forget.controller.operate stages.ungated r.forget.now operation status = _ :=
    (ReplayController.forget_operate stages gate r.now r.controller operation status).symm
  unfold operated
  rw [step]
  rw [apply_ite forget, same]
  rfl

theorem forget_samplePolls : (r.samplePolls (stages.withGate gate) options due).forget =
    r.forget.samplePolls stages.ungated options due := by
  unfold samplePolls
  rw [apply_ite forget]
  exact if_congr Iff.rfl (forget_operated stages gate r fun _ => rfl) rfl

theorem forget_sampleObservers :
    (r.sampleObservers (stages.withGate gate) options cadences due).forget =
      r.forget.sampleObservers stages.ungated options cadences due := by
  unfold sampleObservers
  rw [apply_ite forget]
  exact if_congr Iff.rfl (forget_operated stages gate r fun _ => rfl) rfl

theorem forget_tickOutput :
    (r.tickOutput (stages.withGate gate) options cadences due).forget =
      r.forget.tickOutput stages.ungated options cadences due := by
  unfold tickOutput
  rw [apply_ite forget]
  exact if_congr Iff.rfl (forget_operated stages gate r fun _ => rfl) rfl

end Run

/-! ### Every round advances -/

variable {kind : ReplayEventKind} {work : Run P → Run P} {works : List (Run P → Run P)}

section Rounds

variable (stages : Stages P) (options : ReplayScheduleOptions) (cadences : Cadences)
  (due : MonotonicTimestamp) (r : Run P)

namespace ReplayController

variable (now : MonotonicTimestamp) (c : ReplayController P)

theorem processInput_pending (grant : Grant) :
    (c.processInput stages now grant).2.pending <:+ c.pending := by
  have received : (c.gatedReceive now grant).2.pending <:+ c.pending := by
    cases grant with
    | receive =>
      dsimp only [gatedReceive, sourceReceive, ReplayAcquisitionSource.receive]
      split
      · exact List.suffix_refl _
      rcases c.pending with _ | ⟨timed, rest⟩
      · exact List.suffix_refl _
      · dsimp only
        split
        · exact List.suffix_refl _
        · exact List.suffix_cons timed rest
    | timeout | fault => exact List.suffix_refl _
  unfold processInput
  split
  · exact List.suffix_refl _
  · dsimp only
    split
    · exact received
    · split <;> exact received

theorem processNextFrame_pending :
    (c.processNextFrame stages now).2.pending <:+ c.pending := by
  unfold processNextFrame
  split
  · exact List.suffix_refl _
  split
  · exact List.suffix_refl _
  · exact c.processInput_pending stages now .receive

/-- Only a frame that was pending is handed over. -/
theorem processNextFrame_shorter (frame : (c.processNextFrame stages now).1.input = .frame) :
    (c.processNextFrame stages now).2.pending.length < c.pending.length := by
  have received : (c.gatedReceive now .receive).1.1 = .frame →
      (c.gatedReceive now .receive).2.pending.length < c.pending.length := by
    dsimp only [gatedReceive, sourceReceive, ReplayAcquisitionSource.receive]
    split
    · intro impossible
      cases impossible
    rcases c.pending with _ | ⟨timed, rest⟩
    · intro impossible
      cases impossible
    · dsimp only
      split
      · intro impossible
        cases impossible
      · exact fun _ => Nat.lt_succ_self _
  unfold processNextFrame at frame ⊢
  split
  · rw [if_pos ‹_›] at frame
    cases frame
  rename_i running
  rw [if_neg running] at frame
  split
  · rw [if_pos ‹_›] at frame
    cases frame
  rename_i come
  rw [if_neg come] at frame
  unfold processInput at frame ⊢
  rw [if_neg running] at frame ⊢
  dsimp only at frame ⊢
  split
  · rw [if_pos ‹_›] at frame
    cases frame
  rename_i published
  rw [if_neg published] at frame
  rcases answer : (c.gatedReceive now .receive).1.1 with _ | _ | _ | _
  · exact received answer
  all_goals
    rw [answer] at frame
    dsimp only at frame
  · split at frame <;> cases frame
  · cases frame
  · cases frame

theorem operate_pending (operation : MonotonicTimestamp → P → Bool × P)
    (status : ReplayControllerStatus) :
    (c.operate stages now operation status).2.pending = c.pending := by
  unfold operate
  dsimp only
  split
  · rfl
  · split <;> rfl

end ReplayController

/-- What a piece of a round leaves: the events so far, some of the pending frames, and for each
cadence its due time unless it was served. -/
structure Advances (r next : Run P) : Prop where
  events : r.events <+: next.events
  pending : next.controller.pending <:+ r.controller.pending
  times : ∀ kind, next.view.due kind = r.view.due kind ∨ r.view.due kind = some due ∧
    ∀ time ∈ next.view.due kind, due < time ∧ time ≤ options.endTimeUs

namespace Advances

variable {options due} {r next last : Run P}

theorem refl : Advances options due r r :=
  ⟨List.prefix_refl _, List.suffix_refl _, fun _ => .inl rfl⟩

theorem trans (first : Advances options due r next) (second : Advances options due next last) :
    Advances options due r last where
  events := first.events.trans second.events
  pending := second.pending.trans first.pending
  times := by
    intro kind
    rcases second.times kind with same | ⟨served, later⟩
    · rw [same]
      exact first.times kind
    · rcases first.times kind with same | ⟨_, before⟩
      · exact .inr ⟨same ▸ served, later⟩
      · exact absurd (before due served).1 (Nat.lt_irrefl due)

/-- Nothing that the round sees has changed. -/
theorem of_same (events : next.events = r.events)
    (pending : next.controller.pending = r.controller.pending)
    (times : next.view.due = r.view.due) : Advances options due r next where
  events := events ▸ List.prefix_refl _
  pending := pending ▸ List.suffix_refl _
  times := fun _ => .inl (by rw [times])

/-- A cadence that was served is due later, or no more. -/
theorem of_served (kind : ReplayEventKind) (served : r.view.due kind = some due)
    (events : next.events = r.events ++ [⟨due, kind⟩])
    (pending : next.controller.pending = r.controller.pending)
    (later : ∀ time ∈ next.view.due kind, due < time ∧ time ≤ options.endTimeUs)
    (others : ∀ other, other ≠ kind → next.view.due other = r.view.due other) :
    Advances options due r next where
  events := events ▸ List.prefix_append _ _
  pending := pending ▸ List.suffix_refl _
  times := by
    intro other
    by_cases same : other = kind
    · subst same
      exact .inr ⟨served, later⟩
    · exact .inl (others other same)

/-- A cadence that is not due at this time does not become due at it. -/
theorem idle (advances : Advances options due r next) (idle : r.view.due kind ≠ some due) :
    next.view.due kind ≠ some due := by
  rcases advances.times kind with same | ⟨_, later⟩
  · rwa [same]
  · exact fun again => Nat.lt_irrefl due (later due again).1

end Advances

variable {options due}

/-- The next time of a cadence is a later one within the horizon. -/
theorem nextDeadline_later {period : Microseconds} (positive : 0 < period)
    (reached : due ≤ options.endTimeUs) :
    ∀ time ∈ nextDeadline due period options.endTimeUs, due < time ∧ time ≤ options.endTimeUs := by
  intro time next
  rw [nextDeadline_exact reached options.endTimeUs_le] at next
  split at next
  · obtain rfl := Option.some.inj next
    exact ⟨Nat.lt_add_of_pos_right positive, by assumption⟩
  · exact nomatch next

namespace Run

theorem passGate_advances (time : MonotonicTimestamp) :
    Advances options due r (r.passGate stages time) := by
  unfold passGate admitted
  rcases stages.gate with _ | gate
  · exact .refl
  · dsimp only
    split <;> exact .of_same rfl rfl rfl

theorem advance_advances (time : MonotonicTimestamp) :
    Advances options due r (r.advance time) := by
  unfold advance
  split
  · exact .of_same rfl rfl rfl
  split
  · exact .refl
  · exact .of_same rfl rfl rfl

theorem deliverFrame_advances : Advances options due r (r.deliverFrame stages due) := by
  have left := r.controller.processNextFrame_pending stages r.now
  unfold deliverFrame
  dsimp only
  split
  · exact ⟨List.prefix_refl _, left, fun _ => .inl rfl⟩
  · exact ⟨List.prefix_append _ _, left, fun _ => .inl rfl⟩

theorem whenOk_advances (advances : ∀ r, Advances options due r (work r)) :
    Advances options due r (r.whenOk work) := by
  unfold whenOk
  split
  · exact advances r
  · exact .refl

theorem deliverFrames_advances (rounds : ℕ) :
    Advances options due r (deliverFrames stages due rounds r) := by
  induction rounds generalizing r with
  | zero => exact .refl
  | succ rounds ih =>
    unfold deliverFrames
    split
    · exact (deliverFrame_advances stages r).trans (whenOk_advances _ ih)
    · exact .refl

theorem endStream_advances : Advances options due r (r.endStream stages due) := by
  have left := r.controller.processNextFrame_pending stages r.now
  unfold endStream
  split
  · dsimp only
    split
    · exact ⟨List.prefix_refl _, left, fun _ => .inl rfl⟩
    · exact ⟨List.prefix_append _ _, left, fun _ => .inl rfl⟩
  · exact .refl

variable (positive : Positive options cadences) (reached : due ≤ options.endTimeUs)

include positive reached

theorem serviceAvailability_advances :
    Advances options due r (r.serviceAvailability stages options due) := by
  have left := r.controller.processInput_pending stages r.now .timeout
  unfold serviceAvailability
  split
  · rename_i served
    dsimp only
    split
    · exact ⟨List.prefix_refl _, left, fun _ => .inl rfl⟩
    · refine ⟨List.prefix_append _ _, left, fun kind => ?_⟩
      cases kind
      case timeout => exact .inr ⟨served, nextDeadline_later positive.availability reached⟩
      all_goals exact .inl rfl
  · exact .refl

omit positive reached in
/-- A cadence that is served by an operation of the controller. -/
theorem operated_advances (operation : MonotonicTimestamp → P → Bool × P)
    (status : ReplayControllerStatus) (advances : ∀ next : Run P, next.events = r.events →
      next.controller.pending = r.controller.pending → next.view.due = r.view.due →
        Advances options due r (work next)) :
    Advances options due r
      (r.operated (r.controller.operate stages r.now operation status) work) := by
  have left := r.controller.operate_pending stages r.now operation status
  unfold operated
  split
  · exact .of_same rfl left rfl
  · exact advances _ rfl left rfl

theorem samplePolls_advances : Advances options due r (r.samplePolls stages options due) := by
  unfold samplePolls
  split
  · rename_i served
    refine operated_advances stages r _ _ fun next events pending times => ?_
    refine .of_served .poll served (congrArg (· ++ _) events) pending
      (nextDeadline_later positive.poll reached) fun other differs => ?_
    rw [← times]
    cases other <;> first | rfl | exact absurd rfl differs
  · exact .refl

theorem sampleObservers_advances :
    Advances options due r (r.sampleObservers stages options cadences due) := by
  unfold sampleObservers
  split
  · rename_i served
    refine operated_advances stages r _ _ fun next events pending times => ?_
    refine .of_served .signalSample served (congrArg (· ++ _) events) pending ?_
      fun other differs => ?_
    · intro time later
      obtain ⟨period, present, later⟩ := Option.bind_eq_some_iff.mp later
      exact nextDeadline_later (positive.signalSample period present) reached time later
    · rw [← times]
      cases other <;> first | rfl | exact absurd rfl differs
  · exact .refl

theorem tickOutput_advances :
    Advances options due r (r.tickOutput stages options cadences due) := by
  unfold tickOutput
  split
  · rename_i served
    refine operated_advances stages r _ _ fun next events pending times => ?_
    refine .of_served .outputTick served (congrArg (· ++ _) events) pending
      (nextDeadline_later positive.outputTick reached) fun other differs => ?_
    rw [← times]
    cases other <;> first | rfl | exact absurd rfl differs
  · exact .refl

end Run

/-! ### Every round serves what is due -/

theorem includeEarlier_cases {earliest candidate : Option MonotonicTimestamp}
    (due_at : includeEarlier earliest candidate = some due) :
    earliest = some due ∨ candidate = some due := by
  unfold includeEarlier at due_at
  split at due_at
  · exact .inl due_at
  · exact .inr due_at
  · split at due_at
    · exact .inr due_at
    · exact .inl due_at

/-- A frame or a cadence is due at the next due time. -/
theorem nextDue_cases (next : r.nextDue = some due) : r.controller.nextFrameTime = some due ∨
    ∃ kind, r.view.due kind = some due := by
  rcases includeEarlier_cases next with next | tick
  · rcases includeEarlier_cases next with next | sample
    · rcases includeEarlier_cases next with next | poll
      · rcases includeEarlier_cases next with frame | availability
        · exact .inl frame
        · exact .inr ⟨.timeout, availability⟩
      · exact .inr ⟨.poll, poll⟩
    · exact .inr ⟨.signalSample, sample⟩
  · exact .inr ⟨.outputTick, tick⟩

namespace Run

/-- The pieces of a round after the gate, in their order. -/
def pieces (stages : Stages P) (options : ReplayScheduleOptions) (cadences : Cadences)
    (due : MonotonicTimestamp) : List (Run P → Run P) :=
  [advance due, fun r => deliverFrames stages due r.controller.pending.length r,
    endStream stages due, serviceAvailability stages options due, samplePolls stages options due,
    sampleObservers stages options cadences due, tickOutput stages options cadences due]

theorem iteration_eq : r.iteration stages options cadences due =
    (pieces stages options cadences due).foldl whenOk (r.passGate stages due) := by
  simp only [iteration, pieces, List.foldl_cons, List.foldl_nil]

theorem foldl_ok (ok : (works.foldl whenOk r).ok) : r.ok := by
  induction works generalizing r with
  | nil => exact ok
  | cons work works ih =>
    have after := ih (r.whenOk work) ok
    unfold whenOk at after
    split at after
    · assumption
    · exact after

theorem foldl_advances (advances : ∀ work ∈ works, ∀ r, Advances options due r (work r)) :
    Advances options due r (works.foldl whenOk r) := by
  induction works generalizing r with
  | nil => exact .refl
  | cons work works ih =>
    exact (whenOk_advances r (advances work List.mem_cons_self)).trans
      (ih _ fun work mem => advances work (List.mem_cons_of_mem _ mem))

theorem whenOk_idle (serves : ∀ r, (work r).ok → (work r).view.due kind ≠ some due)
    (ok : (r.whenOk work).ok) : (r.whenOk work).view.due kind ≠ some due := by
  unfold whenOk at ok ⊢
  split at ok
  · rename_i well
    rw [if_pos well]
    exact serves r ok
  · rename_i failed
    exact absurd ok failed

/-- What one piece leaves idle is idle after the pieces, if none failed. -/
theorem foldl_idle (advances : ∀ work ∈ works, ∀ r, Advances options due r (work r))
    (mem : work ∈ works) (serves : ∀ r, (work r).ok → (work r).view.due kind ≠ some due)
    (ok : (works.foldl whenOk r).ok) : (works.foldl whenOk r).view.due kind ≠ some due := by
  induction works generalizing r with
  | nil => exact nomatch mem
  | cons first works ih =>
    have others : ∀ work ∈ works, ∀ r, Advances options due r (work r) :=
      fun work mem => advances work (List.mem_cons_of_mem _ mem)
    rcases List.mem_cons.mp mem with rfl | mem
    · exact (foldl_advances (r.whenOk work) others).idle (whenOk_idle r serves (foldl_ok _ ok))
    · exact ih _ others mem ok

variable (positive : Positive options cadences) (reached : due ≤ options.endTimeUs)

include positive reached

theorem pieces_advance : ∀ work ∈ pieces stages options cadences due, ∀ r,
    Advances options due r (work r) := by
  simp only [pieces, List.forall_mem_cons]
  exact ⟨fun r => r.advance_advances due, fun r => r.deliverFrames_advances stages _,
    fun r => r.endStream_advances stages, fun r => r.serviceAvailability_advances stages cadences
      positive reached, fun r => r.samplePolls_advances stages cadences positive reached,
    fun r => r.sampleObservers_advances stages cadences positive reached,
    fun r => r.tickOutput_advances stages cadences positive reached, nofun⟩

theorem iteration_advances :
    Advances options due r (r.iteration stages options cadences due) := by
  rw [iteration_eq]
  exact (r.passGate_advances stages due).trans
    (foldl_advances _ (pieces_advance stages cadences positive reached))

omit positive reached in
/-- A cadence that an operation served is not due at this time. -/
theorem operated_idle {status : ReplayControllerStatus}
    (serves : ∀ r, (work r).view.due kind ≠ some due)
    (ok : (r.operated (r.controller.operate stages r.now operation status) work).ok) :
    (r.operated (r.controller.operate stages r.now operation status) work).view.due kind ≠
      some due := by
  unfold operated at ok ⊢
  split at ok
  · exact nomatch ok
  · rename_i works
    rw [if_neg works]
    exact serves _

theorem serviceAvailability_idle (ok : (r.serviceAvailability stages options due).ok) :
    (r.serviceAvailability stages options due).view.due .timeout ≠ some due := by
  unfold serviceAvailability at ok ⊢
  split
  · rename_i served
    rw [if_pos served] at ok
    dsimp only at ok ⊢
    split at ok
    · exact nomatch ok
    · rename_i works
      rw [if_neg works]
      exact fun again => Nat.lt_irrefl due
        (nextDeadline_later positive.availability reached due again).1
  · assumption

theorem samplePolls_idle (ok : (r.samplePolls stages options due).ok) :
    (r.samplePolls stages options due).view.due .poll ≠ some due := by
  unfold samplePolls at ok ⊢
  split
  · rename_i served
    rw [if_pos served] at ok
    exact operated_idle stages r
      (fun _ again => Nat.lt_irrefl due (nextDeadline_later positive.poll reached due again).1) ok
  · assumption

theorem sampleObservers_idle (ok : (r.sampleObservers stages options cadences due).ok) :
    (r.sampleObservers stages options cadences due).view.due .signalSample ≠ some due := by
  unfold sampleObservers at ok ⊢
  split
  · rename_i served
    rw [if_pos served] at ok
    refine operated_idle stages r (fun _ again => ?_) ok
    obtain ⟨period, present, again⟩ := Option.bind_eq_some_iff.mp again
    exact Nat.lt_irrefl due
      (nextDeadline_later (positive.signalSample period present) reached due again).1
  · assumption

theorem tickOutput_idle (ok : (r.tickOutput stages options cadences due).ok) :
    (r.tickOutput stages options cadences due).view.due .outputTick ≠ some due := by
  unfold tickOutput at ok ⊢
  split
  · rename_i served
    rw [if_pos served] at ok
    exact operated_idle stages r (fun _ again => Nat.lt_irrefl due
      (nextDeadline_later positive.outputTick reached due again).1) ok
  · assumption

/-- No cadence is due any more at the time of a round that did not fail. -/
theorem iteration_idle (ok : (r.iteration stages options cadences due).ok)
    (kind : ReplayEventKind) :
    (r.iteration stages options cadences due).view.due kind ≠ some due := by
  rw [iteration_eq] at ok ⊢
  have advances := pieces_advance stages cadences positive reached
  cases kind with
  | frame | endOfStream => nofun
  | timeout =>
    exact foldl_idle _ advances (.tail _ (.tail _ (.tail _ (.head _))))
      (fun r => serviceAvailability_idle stages cadences r positive reached) ok
  | poll =>
    exact foldl_idle _ advances (.tail _ (.tail _ (.tail _ (.tail _ (.head _)))))
      (fun r => samplePolls_idle stages cadences r positive reached) ok
  | signalSample =>
    exact foldl_idle _ advances (.tail _ (.tail _ (.tail _ (.tail _ (.tail _ (.head _))))))
      (fun r => sampleObservers_idle stages cadences r positive reached) ok
  | outputTick =>
    exact foldl_idle _ advances
      (.tail _ (.tail _ (.tail _ (.tail _ (.tail _ (.tail _ (.head _)))))))
      (fun r => tickOutput_idle stages cadences r positive reached) ok

omit positive reached in
theorem deliverFrames_shorter (options : ReplayScheduleOptions) {rounds : ℕ}
    (next : r.controller.nextFrameTime = some due) (some_round : 0 < rounds)
    (ok : (deliverFrames stages due rounds r).ok) :
    (deliverFrames stages due rounds r).controller.pending.length <
      r.controller.pending.length := by
  obtain ⟨rounds, rfl⟩ := Nat.exists_eq_succ_of_ne_zero some_round.ne'
  unfold deliverFrames at ok ⊢
  rw [if_pos next] at ok ⊢
  have rest : Advances options due (r.deliverFrame stages due) _ :=
    whenOk_advances _ fun r => deliverFrames_advances stages r rounds
  refine Nat.lt_of_le_of_lt rest.pending.length_le ?_
  have delivered : (r.deliverFrame stages due).ok := by
    unfold whenOk at ok
    split at ok
    · assumption
    · exact ok
  unfold deliverFrame at delivered ⊢
  dsimp only at delivered ⊢
  split at delivered
  · cases delivered
  · rename_i works
    rw [if_neg works]
    exact r.controller.processNextFrame_shorter stages r.now (not_not.mp (not_or.mp works).2)

/-- A frame that is due at the time of a round that did not fail was delivered. -/
theorem iteration_shorter (next : r.controller.nextFrameTime = some due)
    (ok : (r.iteration stages options cadences due).ok) :
    (r.iteration stages options cadences due).controller.pending.length <
      r.controller.pending.length := by
  have advances := pieces_advance stages cadences positive reached
  have parts : pieces stages options cadences due = advance due ::
      (fun r => deliverFrames stages due r.controller.pending.length r) ::
        (pieces stages options cadences due).drop 2 := rfl
  rw [iteration_eq, parts, List.foldl_cons, List.foldl_cons] at ok ⊢
  have later : ∀ work ∈ (pieces stages options cadences due).drop 2, ∀ r,
      Advances options due r (work r) := fun work mem => advances work (List.mem_of_mem_drop mem)
  have rest := foldl_advances
    (((r.passGate stages due).whenOk (advance due)).whenOk
      fun r => deliverFrames stages due r.controller.pending.length r) later
  have delivered := foldl_ok _ ok
  refine Nat.lt_of_le_of_lt rest.pending.length_le ?_
  -- The gate and the clock leave the frames alone.
  have arrived : ((r.passGate stages due).whenOk (advance due)).controller.pending =
      r.controller.pending := by
    have gate : (r.passGate stages due).controller.pending = r.controller.pending := by
      unfold passGate admitted
      rcases stages.gate with _ | gate
      · rfl
      · dsimp only
        split <;> rfl
    unfold whenOk advance
    split
    · split
      · exact gate
      · split <;> exact gate
    · exact gate
  generalize (r.passGate stages due).whenOk (advance due) = moved at delivered arrived ⊢
  have coming : moved.controller.nextFrameTime = some due := by
    rw [ReplayController.nextFrameTime, arrived]
    exact next
  have some_frame : 0 < moved.controller.pending.length := by
    refine List.length_pos_of_ne_nil fun empty => ?_
    rw [ReplayController.nextFrameTime, empty] at coming
    cases coming
  rw [← arrived]
  unfold whenOk at delivered ⊢
  split at delivered
  · rename_i well
    rw [if_pos well]
    exact deliverFrames_shorter stages moved options coming some_frame delivered
  · exact absurd delivered ‹_›

end Run

end Rounds

/-! ### A replay returns -/

/-- Everything that is due is due within the horizon. -/
structure Run.Within (options : ReplayScheduleOptions) (r : Run P) : Prop where
  frames : ∀ timed ∈ r.controller.pending, timed.relativeTimeUs ≤ options.endTimeUs
  cadences : ∀ kind, ∀ time ∈ r.view.due kind, time ≤ options.endTimeUs

/-- The time that is left to a cadence. -/
def timeLeft (options : ReplayScheduleOptions) : Option MonotonicTimestamp → ℕ
  | none => 0
  | some time => options.endTimeUs + 1 - time

/-- The work that is left to a run: its frames, and the time of each cadence. -/
def Run.left (options : ReplayScheduleOptions) (r : Run P) : ℕ :=
  r.controller.pending.length + (timeLeft options r.availability + timeLeft options r.poll +
    timeLeft options r.signalSample + timeLeft options r.outputTick)

/-- A run that failed has one round less to do. -/
def Run.variant (options : ReplayScheduleOptions) (r : Run P) : ℕ := r.left options + r.ok.toNat

section Returns

variable {stages : Stages P} {options : ReplayScheduleOptions} {cadences : Cadences}
  {due : MonotonicTimestamp} {r next : Run P}

section

variable (advances : Advances options due r next)
include advances

theorem Advances.within (within : r.Within options) : next.Within options where
  frames := fun timed mem => within.frames timed (advances.pending.subset mem)
  cadences := by
    intro kind time at_time
    rcases advances.times kind with same | ⟨_, later⟩
    · exact within.cadences kind time (same ▸ at_time)
    · exact (later time at_time).2

theorem Advances.timeLeft_le (reached : due ≤ options.endTimeUs) (kind : ReplayEventKind) :
    timeLeft options (next.view.due kind) ≤ timeLeft options (r.view.due kind) ∧
      (r.view.due kind = some due → next.view.due kind ≠ some due →
        timeLeft options (next.view.due kind) < timeLeft options (r.view.due kind)) := by
  rcases advances.times kind with same | ⟨served, later⟩
  · exact ⟨le_of_eq (by rw [same]), fun was isnt => absurd (same.trans was) isnt⟩
  · have shorter : timeLeft options (next.view.due kind) < timeLeft options (r.view.due kind) := by
      rw [served]
      rcases after : next.view.due kind with _ | time
      · exact Nat.sub_pos_of_lt (Nat.lt_succ_of_le reached)
      · exact Nat.sub_lt_sub_left (Nat.lt_succ_of_le reached) (later time after).1
    exact ⟨shorter.le, fun _ _ => shorter⟩

/-- What served something that was due, or failed, has less to do. -/
theorem Advances.lowers (reached : due ≤ options.endTimeUs) (ok : r.ok)
    (coming : r.controller.nextFrameTime = some due ∨ ∃ kind, r.view.due kind = some due)
    (fewer : next.ok → r.controller.nextFrameTime = some due →
      next.controller.pending.length < r.controller.pending.length)
    (idle : next.ok → ∀ kind, next.view.due kind ≠ some due) :
    next.variant options < r.variant options := by
  have frames := advances.pending.length_le
  have availability := advances.timeLeft_le reached .timeout
  have poll := advances.timeLeft_le reached .poll
  have sample := advances.timeLeft_le reached .signalSample
  have tick := advances.timeLeft_le reached .outputTick
  simp only [Run.view] at availability poll sample tick
  rw [Run.variant, Run.variant, Run.left, Run.left, ok]
  rcases well : next.ok with _ | _
  · -- the round failed, and nothing is done over
    simp only [Bool.toNat_false, Bool.toNat_true]
    omega
  · have idle := idle well
    rcases coming with frame | ⟨kind, cadence⟩
    · have := fewer well frame
      omega
    · simp only [Run.view] at idle cadence
      cases kind with
      | frame | endOfStream => exact nomatch cadence
      | timeout =>
        have := availability.2 cadence (idle .timeout)
        omega
      | poll =>
        have := poll.2 cadence (idle .poll)
        omega
      | signalSample =>
        have := sample.2 cadence (idle .signalSample)
        omega
      | outputTick =>
        have := tick.2 cadence (idle .outputTick)
        omega

end

/-- **A round lowers what is left**, or fails. -/
theorem round_lowers (positive : Positive options cadences) (within : r.Within options)
    (round : r.round stages options cadences = some next) :
    next.Within options ∧ r.events <+: next.events ∧ next.variant options < r.variant options := by
  unfold Run.round at round
  split at round
  case isFalse => exact nomatch round
  rename_i ok
  obtain ⟨due, coming, rfl⟩ := Option.map_eq_some_iff.mp round
  have sources := nextDue_cases r coming
  have reached : due ≤ options.endTimeUs := by
    rcases sources with frame | ⟨kind, cadence⟩
    · obtain ⟨timed, head, rfl⟩ := Option.map_eq_some_iff.mp frame
      exact within.frames timed (List.mem_of_mem_head? head)
    · exact within.cadences kind due cadence
  have advances := r.iteration_advances stages cadences positive reached
  exact ⟨advances.within within, advances.events, advances.lowers reached ok sources
    (fun well frame => r.iteration_shorter stages cadences positive reached frame well)
    (fun well => r.iteration_idle stages cadences positive reached well)⟩

/-- The loop leaves within a number of rounds. -/
theorem loop_returns (stages : Stages P) (positive : Positive options cadences)
    (within : r.Within options) : ∃ rounds last, ∀ fuel, rounds < fuel →
      While.run (fun r => r.round stages options cadences) fuel r = some last := by
  obtain ⟨last, -, -, runs⟩ := @While.run_of_variant _
    (fun r => r.round stages options cadences) (Run.Within options) (Run.variant options)
    (fun s next within round => by
      obtain ⟨kept, -, lower⟩ := round_lowers positive within round
      exact ⟨kept, lower⟩) r within
  exact ⟨_, last, runs⟩

/-- The loop takes no event back. -/
theorem loop_events (positive : Positive options cadences) (within : r.Within options) {fuel : ℕ}
    {last : Run P}
    (leaves : While.run (fun r => r.round stages options cadences) fuel r = some last) :
    r.events <+: last.events := by
  have kept := @While.run_keeps _ (fun r => r.round stages options cadences)
    (fun s : Run P => s.Within options ∧ r.events <+: s.events)
    (fun s next held round => by
      obtain ⟨within, events, -⟩ := round_lowers positive held.1 round
      exact ⟨within, held.2.trans events⟩) fuel r last ⟨within, List.prefix_refl _⟩ leaves
  exact kept.2

end Returns

/-! ### A replay behind a gate -/

namespace Run

variable (stages : Stages P) (gate : MonotonicTimestamp → P → G → Bool × G)
  (options : ReplayScheduleOptions) (cadences : Cadences) (due : MonotonicTimestamp)
  (r : Run (P × G))

/-- What a run behind a gate is to one without a gate: the same, or the gate refused a time and the
run was interrupted with a part of the events. -/
def Follows (gated : Run (P × G)) (bare : Run P) : Prop :=
  gated.forget = bare ∨ (∃ now p g, (gate now p g).1 = false) ∧
    gated.result.status = .interrupted ∧ gated.events <+: bare.events

theorem passGate_cases : (r.passGate (stages.withGate gate) due).forget = r.forget ∨
    (∃ now p g, (gate now p g).1 = false) ∧
      (r.passGate (stages.withGate gate) due).forget = r.forget.withStatus .interrupted := by
  by_cases answer : (r.admitted (stages.withGate gate) due).1 = true
  · have passed : r.passGate (stages.withGate gate) due =
        (r.admitted (stages.withGate gate) due).2 := if_pos answer
    exact .inl ((congrArg forget passed).trans rfl)
  · have refused : r.passGate (stages.withGate gate) due =
        (r.admitted (stages.withGate gate) due).2.withStatus .interrupted := if_neg answer
    exact .inr ⟨⟨due, r.controller.stages.1, r.controller.stages.2,
      Bool.eq_false_of_not_eq_true answer⟩, (congrArg forget refused).trans rfl⟩

theorem foldl_failed {r : Run P} (failed : ¬ r.ok) : works.foldl whenOk r = r := by
  induction works with
  | nil => rfl
  | cons work works ih =>
    rw [List.foldl_cons, whenOk, if_neg failed]
    exact ih

theorem forget_pieces :
    ((pieces (stages.withGate gate) options cadences due).foldl whenOk r).forget =
      (pieces stages.ungated options cadences due).foldl whenOk r.forget := by
  have delivered (r : Run (P × G)) : (r.whenOk fun r =>
      deliverFrames (stages.withGate gate) due r.controller.pending.length r).forget =
        r.forget.whenOk fun r => deliverFrames stages.ungated due r.controller.pending.length r :=
    forget_whenOk r fun r => forget_deliverFrames stages gate due r _
  simp only [pieces, List.foldl_cons, List.foldl_nil]
  rw [forget_whenOk _ (forget_tickOutput stages gate options cadences due),
    forget_whenOk _ (forget_sampleObservers stages gate options cadences due),
    forget_whenOk _ (forget_samplePolls stages gate options due),
    forget_whenOk _ (forget_serviceAvailability stages gate options due),
    forget_whenOk _ (forget_endStream stages gate due), delivered,
    forget_whenOk _ (forget_advance due)]

/-- **A round behind a gate is a round without one**, or the gate refused it. -/
theorem iteration_forget : (r.iteration (stages.withGate gate) options cadences due).forget =
      r.forget.iteration stages.ungated options cadences due ∨
    (∃ now p g, (gate now p g).1 = false) ∧
      (r.iteration (stages.withGate gate) options cadences due).forget =
        r.forget.withStatus .interrupted := by
  rw [iteration_eq, forget_pieces, iteration_eq]
  rcases passGate_cases stages gate due r with passed | ⟨refuses, refused⟩
  · exact .inl (by rw [passed]; rfl)
  · refine .inr ⟨refuses, ?_⟩
    rw [refused]
    exact foldl_failed nofun

omit gate in
theorem round_none {r : Run P} (idle : ¬ r.ok ∨ r.nextDue = none) :
    r.round stages options cadences = none := by
  unfold round
  rcases idle with failed | idle
  · exact if_neg failed
  · rw [idle]
    split <;> rfl

omit gate in
theorem round_some {r : Run P} (ok : r.ok) (coming : r.nextDue = some due) :
    r.round stages options cadences = some (r.iteration stages options cadences due) := by
  unfold round
  rw [if_pos ok, coming]
  rfl

/-- **The loop behind a gate leaves whenever the loop without one does.** -/
theorem loop_follows (positive : Positive options cadences) {fuel : ℕ} {r : Run (P × G)}
    (within : r.forget.Within options) {last : Run P}
    (leaves : While.run (fun r => r.round stages.ungated options cadences) fuel r.forget =
      some last) :
    ∃ gated, While.run (fun r => r.round (stages.withGate gate) options cadences) fuel r =
      some gated ∧ Follows gate gated last := by
  induction fuel generalizing r with
  | zero => cases leaves
  | succ fuel ih =>
    by_cases idle : ¬ r.ok ∨ r.nextDue = none
    · -- both are at their end
      rw [While.run_leave (round_none stages.ungated options cadences idle)] at leaves
      rw [While.run_leave (round_none (stages.withGate gate) options cadences idle)]
      exact ⟨r, rfl, .inl (Option.some.inj leaves)⟩
    obtain ⟨ok, coming⟩ := not_or.mp idle
    have ok := not_not.mp ok
    obtain ⟨due, coming⟩ := Option.ne_none_iff_exists'.mp coming
    have bare_next := round_some stages.ungated options cadences due (r := r.forget) ok coming
    obtain ⟨within_next, events, -⟩ := round_lowers positive within bare_next
    rw [While.run_round bare_next] at leaves
    rw [While.run_round (round_some (stages.withGate gate) options cadences due ok coming)]
    rcases iteration_forget stages gate options cadences due r with same | ⟨refuses, refused⟩
    · rw [← same] at leaves within_next
      exact ih within_next leaves
    · -- the gate refused the time: the loop leaves, and the other one goes on
      have later := loop_events positive within_next leaves
      rcases fuel with _ | fuel
      · cases leaves
      generalize r.iteration (stages.withGate gate) options cadences due = gated at *
      have status : gated.result.status = .interrupted :=
        congrArg (fun r => r.result.status) refused
      have same : gated.events = r.events := congrArg (fun r => r.events) refused
      have failed : ¬ gated.ok := by
        rw [Run.ok, status]
        intro complete
        cases complete
      refine ⟨gated, While.run_leave (round_none _ options cadences (.inl failed)) fuel,
        .inr ⟨refuses, status, ?_⟩⟩
      rw [same]
      exact events.trans later

omit gate in
/-- What a replay makes of the stop of its controller. -/
def conclude (r : Run P) (stopped : ReplayControllerStatus × ReplayController P) : Run P :=
  let r := { r with
    controller := stopped.2, result := { r.result with stopStatus := stopped.1 } }
  if r.ok ∧ stopped.1 ≠ .ok then
    { r with result := { r.result with
        status := .controllerFailure, controllerStatus := stopped.1 } }
  else r

omit gate in
/-- The end of a replay after the gate was asked. -/
def close (r : Run P) : Run P :=
  let r := r.whenOk (advance options.endTimeUs)
  r.conclude (r.controller.stop stages r.now)

omit gate in
theorem finish_eq (r : Run P) : r.finish stages options =
    (if r.ok ∧ r.now < options.endTimeUs then r.passGate stages options.endTimeUs else r).close
      stages options := rfl

omit gate in
/-- The end of a replay records nothing. -/
theorem close_events (r : Run P) : (r.close stages options).events = r.events := by
  have moved : (r.whenOk (advance options.endTimeUs)).events = r.events := by
    unfold whenOk advance
    split
    · split
      · rfl
      · split <;> rfl
    · rfl
  unfold close conclude
  dsimp only
  split <;> exact moved

omit gate in
/-- A replay that was interrupted stays so. -/
theorem close_interrupted {r : Run P} (interrupted : r.result.status = .interrupted) :
    (r.close stages options).result.status = .interrupted := by
  have failed : ¬ r.ok := by
    rw [ok, interrupted]
    intro complete
    cases complete
  have left : r.whenOk (advance options.endTimeUs) = r := if_neg failed
  unfold close conclude
  rw [left]
  rw [if_neg fun well => failed well.1]
  exact interrupted

theorem forget_close :
    (r.close (stages.withGate gate) options).forget = r.forget.close stages.ungated options := by
  have moved := forget_whenOk r (forget_advance options.endTimeUs)
  unfold close
  rw [← moved]
  generalize r.whenOk (advance options.endTimeUs) = s
  have stopped : s.forget.controller.stop stages.ungated s.forget.now = _ :=
    (ReplayController.forget_stop stages gate s.now s.controller).symm
  dsimp only
  rw [stopped, conclude, apply_ite forget]
  rfl

/-- The end of a replay behind a gate is the end of one without, or the gate refused it. -/
theorem finish_follows :
    Follows gate (r.finish (stages.withGate gate) options)
      (r.forget.finish stages.ungated options) := by
  have bare : (if r.forget.ok ∧ r.forget.now < options.endTimeUs then
      r.forget.passGate stages.ungated options.endTimeUs else r.forget) = r.forget := by
    split <;> rfl
  rw [finish_eq, finish_eq, bare]
  split
  swap
  · exact .inl (forget_close stages gate options r)
  rcases passGate_cases stages gate options.endTimeUs r with passed | ⟨refuses, refused⟩
  · refine .inl ?_
    rw [forget_close, passed]
  · have status := congrArg (fun r => r.result.status) refused
    have events := congrArg (fun r => r.events) refused
    refine .inr ⟨refuses, close_interrupted (stages.withGate gate) options status, ?_⟩
    rw [close_events, close_events]
    exact events ▸ List.prefix_refl _

/-- What follows in the loop follows to the end. -/
theorem Follows.finish {gated : Run (P × G)} {bare : Run P} (follows : Follows gate gated bare) :
    Follows gate (gated.finish (stages.withGate gate) options)
      (bare.finish stages.ungated options) := by
  rcases follows with rfl | ⟨refuses, interrupted, before⟩
  · exact finish_follows stages gate options gated
  · have failed : ¬ gated.ok := by
      rw [ok, interrupted]
      intro complete
      cases complete
    refine .inr ⟨refuses, ?_, ?_⟩
    · rw [finish_eq, if_neg fun well => failed well.1]
      exact close_interrupted (stages.withGate gate) options interrupted
    · rw [finish_eq, finish_eq, close_events, close_events, if_neg fun well => failed well.1]
      refine before.trans ?_
      split <;> exact List.prefix_refl _

end Run

/-- The run with which the loop begins, after the controller was started. -/
def Run.begin (options : ReplayScheduleOptions) (cadences : Cadences)
    (started : ReplayControllerStatus × ReplayController P) (now : MonotonicTimestamp) : Run P where
  now := now
  controller := started.2
  result := { controllerStatus := started.1 }
  availability :=
    if options.availabilityPeriodUs ≤ options.endTimeUs then some options.availabilityPeriodUs
    else none
  poll := some 0
  signalSample := cadences.signalSamplePeriodUs.map fun _ => 0
  outputTick := some 0

/-- A run begins with all that is due within the horizon. -/
theorem Run.begin_within {options : ReplayScheduleOptions} {cadences : Cadences}
    {started : ReplayControllerStatus × ReplayController P} {now : MonotonicTimestamp}
    (frames : ∀ timed ∈ started.2.pending, timed.relativeTimeUs ≤ options.endTimeUs) :
    (Run.begin options cadences started now).Within options where
  frames := frames
  cadences := by
    intro kind time at_time
    cases kind with
    | frame | endOfStream => exact nomatch at_time
    | timeout =>
      simp only [Run.view, Run.begin] at at_time
      split at at_time
      · rename_i inside
        exact Option.some.inj at_time ▸ inside
      · exact nomatch at_time
    | poll | outputTick => exact Option.some.inj at_time ▸ Nat.zero_le _
    | signalSample =>
      obtain ⟨-, -, rfl⟩ := Option.map_eq_some_iff.mp at_time
      exact Nat.zero_le _

/-- The loop and the end of a replay, once the controller works. -/
theorem runReplay_started (stages : Stages P) (initial : P) {frames : List TimedCanFrame}
    {now : MonotonicTimestamp} {options : ReplayScheduleOptions}
    (valid : validate frames now options (resolveCadences stages options) = .ok)
    (started : (ReplayController.start stages now { pending := frames, stages := initial }).1 = .ok)
    (fuel : ℕ) : runReplay stages fuel frames now options initial =
      (While.run (fun r => r.round stages options (resolveCadences stages options)) fuel
        (Run.begin options (resolveCadences stages options)
          (ReplayController.start stages now { pending := frames, stages := initial }) now)).map
        fun r => r.finish stages options := by
  unfold runReplay
  rw [if_neg (not_not_intro valid), if_neg (not_not_intro started)]
  rfl

/-- **A replay behind a gate** returns, as the replay without one does, with a part of its events.
It is the same replay unless the gate refused a time, and then it was interrupted. -/
theorem gated_replay (stages : Stages P) (gate : MonotonicTimestamp → P → G → Bool × G)
    (frames : List TimedCanFrame) (now : MonotonicTimestamp) (options : ReplayScheduleOptions)
    (initial : P) (held : G) :
    ∃ rounds, ∀ fuel, rounds < fuel → ∃ gated bare,
      runReplay (stages.withGate gate) fuel frames now options (initial, held) = some gated ∧
        runReplay stages.ungated fuel frames now options initial = some bare ∧
        Run.Follows gate gated bare := by
  by_cases valid : validate frames now options (resolveCadences stages.ungated options) = .ok
  swap
  · refine ⟨0, fun fuel _ => ⟨_, _, if_pos valid, if_pos valid, .inl rfl⟩⟩
  have start : (ReplayController.start stages.ungated now
      { pending := frames, stages := initial }) = _ :=
    (ReplayController.forget_start stages gate now
      { pending := frames, stages := (initial, held) }).symm
  by_cases started : (ReplayController.start stages.ungated now
      { pending := frames, stages := initial }).1 = .ok
  swap
  · exact ⟨0, fun fuel _ => ⟨_, _, (if_neg (not_not_intro valid)).trans (if_pos started),
      (if_neg (not_not_intro valid)).trans (if_pos started), .inl rfl⟩⟩
  have positive : Positive options (resolveCadences stages.ungated options) :=
    (validate_ok valid).positive
  -- The controller that was started has all the frames pending.
  have within : (Run.begin options (resolveCadences stages.ungated options)
      (ReplayController.start stages.ungated now { pending := frames, stages := initial })
        now).Within options :=
    Run.begin_within fun timed mem => (validate_ok valid).inside _ (List.mem_map_of_mem mem)
  obtain ⟨rounds, last, returns⟩ := loop_returns stages.ungated positive within
  refine ⟨rounds, fun fuel enough => ?_⟩
  have leaves := returns fuel enough
  have same : (Run.begin options (resolveCadences (stages.withGate gate) options)
      (ReplayController.start (stages.withGate gate) now
        { pending := frames, stages := (initial, held) }) now).forget =
      Run.begin options (resolveCadences stages.ungated options)
        (ReplayController.start stages.ungated now { pending := frames, stages := initial })
        now := by
    rw [start]
    rfl
  rw [← same] at leaves within
  obtain ⟨gated, gated_leaves, follows⟩ := Run.loop_follows stages gate options
    (resolveCadences stages.ungated options) positive within leaves
  refine ⟨_, _, ?_, ?_, follows.finish stages gate options⟩
  · exact (runReplay_started (stages.withGate gate) (initial, held) valid started fuel).trans
      (congrArg (Option.map _) gated_leaves)
  · exact (runReplay_started stages.ungated initial valid started fuel).trans
      (congrArg (Option.map _) (same ▸ leaves))

/-! ### Playback at a pace

A playback is a replay behind a pacer. The pacer releases the steps of a pass once their replay time
was played, and not before, as long as its clock can still be read a slice ahead. What it holds back
or interrupts changes nothing else in the replay. -/

open Checked Machine

/-- **Pacing loses and repeats no replay time.** The spans of a rate are exact inverses below
saturation, and no operation leaves its type. After every run a pacer keeps its anchor between what
was played and the pending due time, and releases a step exactly when enough was played. A replay
behind any gate does a part of what it does without one, and all of it unless the gate refuses. -/
theorem playback_pacing :
    (∀ (rate : PlaybackRate) (replayUs : ℕ) (wall : ℤ),
      (∃ span, rate.wallSpan replayUs = .ok span) ∧
        ∃ played, rate.replaySpan wall = .ok played) ∧
    (∀ (rate : PlaybackRate) (replayUs wall : ℕ),
      replayUs ≤ kMaxUnsigned → wall < kMaxMicroseconds →
        ∃ span played, rate.wallSpan replayUs = .ok span ∧ rate.replaySpan wall = .ok played ∧
          (span ≤ wall ↔ replayUs ≤ played)) ∧
    (∀ (start : ℤ) (inputs : List PacerInput) (input : PacerInput), 0 ≤ start →
      Paced lastReadable (create start) (Pass.create start) (inputs ++ [input]) →
        Paces (passOf (Pass.create start)
            (trace step (create start) inputs))
          (after step (create start) inputs) input) ∧
    (∀ (P G : Type) (stages : Stages P) (gate : MonotonicTimestamp → P → G → Bool × G)
      (frames : List TimedCanFrame) (now : MonotonicTimestamp) (options : ReplayScheduleOptions)
      (initial : P) (held : G), ∃ rounds, ∀ fuel, rounds < fuel → ∃ gated bare,
        runReplay (stages.withGate gate) fuel frames now options (initial, held) = some gated ∧
          runReplay stages.ungated fuel frames now options initial = some bare ∧
          gated.events <+: bare.events ∧
          (gated.result.status ≠ .interrupted → gated.forget = bare) ∧
          ((∀ time p g, (gate time p g).1 = true) → gated.forget = bare)) := by
  refine ⟨fun rate replayUs wall => ⟨⟨_, rate.wallSpan_eq replayUs⟩, ?_⟩,
    fun rate replayUs wall word below => rate.wallSpan_le_iff word below, ?_, ?_⟩
  · rcases le_total 0 wall with forward | backward
    · exact ⟨_, rate.replaySpan_eq forward⟩
    · exact ⟨0, if_pos backward⟩
  · intro start inputs input positive paced
    obtain ⟨before, admits, -⟩ := paced_append.mp paced
    exact paces (pacer_run (pacer_start positive) before) admits
  · intro P G stages gate frames now options initial held
    obtain ⟨rounds, replays⟩ := gated_replay stages gate frames now options initial held
    refine ⟨rounds, fun fuel enough => ?_⟩
    obtain ⟨gated, bare, returns, bare_returns, follows⟩ := replays fuel enough
    refine ⟨gated, bare, returns, bare_returns, ?_⟩
    rcases follows with rfl | ⟨⟨time, p, g, refuses⟩, interrupted, before⟩
    · exact ⟨List.prefix_refl _, fun _ => rfl, fun _ => rfl⟩
    · refine ⟨before, fun went_on => absurd interrupted went_on, fun admits => ?_⟩
      rw [admits] at refuses
      exact nomatch refuses

/-- A step that is due after 100 microseconds of replay time is released after 55 of wall time, of
which the last 45 were played at double rate. -/
theorem released_at_double_rate :
    let inputs : List PacerInput :=
      [.beginReplay 0, .admitAt 100, .poll (.command (.setRate .double)) 10, .poll .idle 10]
    let session := after step (create 0) inputs
    (session.step (.check 55)).2 = .released ∧
      Paces (passOf (Pass.create 0)
        (trace step (create 0) inputs)) session (.check 55) ∧
      ∃ span played, PlaybackRate.double.wallSpan 90 = .ok span ∧
        PlaybackRate.double.replaySpan (45 : ℕ) = .ok played ∧ (span ≤ (45 : ℕ) ↔ 90 ≤ played) :=
  ⟨by decide +kernel,
    playback_pacing.2.2.1 0 _ (.check 55) (by decide) (by decide +kernel),
    playback_pacing.2.1 .double 90 45 (by decide) (by decide)⟩

/-- At the end of the range of the clock the target saturates, and a step is released although
its due time was not played. -/
theorem released_at_end_of_clock :
    ∃ inputs due now, Paced kMaxMicroseconds (create 0) (Pass.create 0)
        (inputs ++ [.check now]) ∧
      (after step (create 0) inputs).place = .checking due ∧
      ((after step (create 0) inputs).step (.check now)).2 =
        .released ∧
      ¬ (due : ℚ) ≤ (passOf (Pass.create 0)
        (trace step (create 0) inputs)).played now := by
  refine ⟨[.admitAt maxTimestamp, .poll .idle 0], maxTimestamp, kMaxMicroseconds, by decide +kernel,
    rfl, by decide +kernel, ?_⟩
  rw [not_le]
  have normal : PlaybackRate.normal.value = 1 := by norm_num [PlaybackRate.value,
    PlaybackRate.numerator, PlaybackRate.denominator]
  have all : (passOf (Pass.create 0) (trace step (create 0)
      [.admitAt maxTimestamp, .poll .idle 0])).played kMaxMicroseconds =
        PlaybackRate.normal.value * ((kMaxMicroseconds : ℤ) - 0 : ℤ) + 0 := rfl
  rw [all, normal]
  norm_num [kMaxMicroseconds, maxTimestamp]

end AccessoryController.Replay
