import AccessoryController.Library.Timetable
import AccessoryController.Replay.Scheduler

/-!
# The schedule of a replay

A replay whose collaborators answer Ok runs as a timetable: the frames are its arrivals, and the
cadences its periodic sources. The checks before a run give what the timetable needs, and the
deadlines of the scheduler are exact although their sums are 64-bit ones. So a replay comes to
its end, delivers every frame once and in order, and serves each cadence at every one of its
times.

## Main definitions

* `Stages.AlwaysOk`: every collaborator answers Ok
* `dispatchRank`: the order of service at one time
* `timetable`: the timetable of a replay
* `Scheduled`: what a replay has done at its end

## Main results

* `nextDeadline_exact`: a deadline is the exact sum, or lies past the horizon
* `round_view`: a round of the scheduler is a round of the timetable
* `replay_schedule`: a valid replay does all of its schedule
-/

namespace AccessoryController.Replay

open VehicleCore ReplayController

variable {P : Type}

/-- Every collaborator answers Ok. -/
structure Stages.AlwaysOk (stages : Stages P) : Prop where
  gate : ∀ gate, stages.gate = some gate → ∀ now p, (gate now p).1 = true
  start : ∀ now p, (stages.start now p).1 = .ok
  publish : ∀ now status frame p, (stages.publish now status frame p).1 = .ok
  samplePolledRules : ∀ now p, (stages.samplePolledRules now p).1 = true
  sampleSignals : ∀ now p, (stages.sampleSignals now p).1 = true
  tick : ∀ now p, (stages.tick now p).1 = true
  failOff : ∀ now p, (stages.failOff now p).1 = true
  stop : ∀ now p, (stages.stop now p).1 = true
  stopTelemetry : ∀ p, (stages.stopTelemetry p).1 = (.ok, true)

/-- The order of service at one time. It is not the order in which the kinds are declared. -/
def dispatchRank : ReplayEventKind → ℕ
  | .frame => 0
  | .endOfStream => 1
  | .timeout => 2
  | .poll => 3
  | .signalSample => 4
  | .outputTick => 5

/-! ### What the checks give -/

/-- A deadline is the exact sum, or lies past the horizon: its 64-bit sum never wraps. -/
theorem nextDeadline_exact {current period horizon : ℕ} (reached : current ≤ horizon)
    (bound : horizon ≤ maxTimestamp) :
    nextDeadline current period horizon =
      if current + period ≤ horizon then some (current + period) else none := by
  unfold nextDeadline maxTimestamp at *
  by_cases guard : 2 ^ 64 - 1 - current < period
  · rw [if_pos guard, if_neg (by omega)]
  · have fits : (current + period) % 2 ^ 64 = current + period := Nat.mod_eq_of_lt (by omega)
    simp only [if_neg guard, fits]

theorem orderedFrom_spec {previous : ℕ} {frames : List TimedCanFrame}
    (ordered : orderedFrom previous frames = true) :
    (∀ timed ∈ frames, previous ≤ timed.relativeTimeUs) ∧
      (frames.map (·.relativeTimeUs)).Pairwise (· ≤ ·) := by
  induction frames generalizing previous with
  | nil => exact ⟨fun _ mem => absurd mem List.not_mem_nil, List.Pairwise.nil⟩
  | cons timed rest ih =>
    unfold orderedFrom at ordered
    split at ordered
    · simp at ordered
    · next regular =>
      obtain ⟨later, ascending⟩ := ih ordered
      have first : previous ≤ timed.relativeTimeUs :=
        Nat.not_lt.mp fun less => regular (.inl less)
      refine ⟨fun u mem => ?_, ?_⟩
      · rcases List.mem_cons.mp mem with rfl | mem
        · exact first
        · exact first.trans (later u mem)
      · refine List.pairwise_cons.mpr ⟨fun time mem => ?_, ascending⟩
        obtain ⟨u, mem', rfl⟩ := List.mem_map.mp mem
        exact later u mem'

theorem fits_eq_some {count remaining left : ℕ} (fit : fits count remaining = some left) :
    left + count = remaining := by
  unfold fits at fit
  split at fit
  · simp at fit
  · rw [Option.some.injEq] at fit
    omega

theorem fitsInclusiveCadence_eq_some {ticks remaining left : ℕ}
    (fit : fitsInclusiveCadence ticks remaining = some left) :
    left + (ticks + 1) = remaining := by
  unfold fitsInclusiveCadence at fit
  split at fit
  · simp at fit
  · rw [Option.some.injEq] at fit
    omega

/-- How many availability timeouts are due up to the horizon: the first after one period. -/
def timeoutCount (options : ReplayScheduleOptions) : ℕ :=
  options.endTimeUs / options.availabilityPeriodUs

def pollCount (options : ReplayScheduleOptions) : ℕ := options.endTimeUs / options.pollPeriodUs + 1

def outputTickCount (options : ReplayScheduleOptions) (cadences : Cadences) : ℕ :=
  options.endTimeUs / cadences.outputTickPeriodUs + 1

/-- Signal samples are only due with observers. -/
def signalSampleCount (options : ReplayScheduleOptions) (cadences : Cadences) : ℕ :=
  match cadences.signalSamplePeriodUs with
  | none => 0
  | some period => options.endTimeUs / period + 1

variable {cadences : Cadences} {options : ReplayScheduleOptions}

/-- The events of a run that are not frames fit the budget. -/
theorem fitsEventBudget_spec (fit : fitsEventBudget options cadences = true) :
    1 + timeoutCount options + outputTickCount options cadences + pollCount options +
      signalSampleCount options cadences ≤ kMaximumScheduledEvents := by
  obtain ⟨left, fit⟩ := Option.isSome_iff_exists.mp fit
  obtain ⟨afterTimeouts, timeouts, fit⟩ := Option.bind_eq_some_iff.mp fit
  obtain ⟨afterTicks, ticks, fit⟩ := Option.bind_eq_some_iff.mp fit
  obtain ⟨afterPolls, polls, fit⟩ := Option.bind_eq_some_iff.mp fit
  have timeouts : afterTimeouts + timeoutCount options = kMaximumScheduledEvents - 1 :=
    fits_eq_some timeouts
  have ticks : afterTicks + outputTickCount options cadences = afterTimeouts :=
    fitsInclusiveCadence_eq_some ticks
  have polls : afterPolls + pollCount options = afterTicks := fitsInclusiveCadence_eq_some polls
  have samples : left + signalSampleCount options cadences = afterPolls := by
    unfold signalSampleCount
    rcases present : cadences.signalSamplePeriodUs with _ | period
    · rw [present] at fit
      exact (Option.some.inj fit).symm
    · rw [present] at fit
      exact fitsInclusiveCadence_eq_some fit
  have total : kMaximumScheduledEvents = 2000000 := rfl
  omega

/-- Every cadence advances. -/
structure Positive (options : ReplayScheduleOptions) (cadences : Cadences) : Prop where
  availability : 0 < options.availabilityPeriodUs
  outputTick : 0 < cadences.outputTickPeriodUs
  poll : 0 < options.pollPeriodUs
  signalSample : ∀ period, cadences.signalSamplePeriodUs = some period → 0 < period

/-- What a replay has to meet before it starts. -/
structure Valid (frames : List TimedCanFrame) (now : MonotonicTimestamp)
    (options : ReplayScheduleOptions) (cadences : Cadences) : Prop where
  now : now = 0
  positive : Positive options cadences
  ascending : (frames.map (·.relativeTimeUs)).Pairwise (· ≤ ·)
  inside : ∀ time ∈ frames.map (·.relativeTimeUs), time ≤ options.endTimeUs
  budget : fitsEventBudget options cadences = true

theorem validate_ok {frames : List TimedCanFrame} {now : MonotonicTimestamp}
    (valid : validate frames now options cadences = .ok) : Valid frames now options cadences := by
  unfold validate at valid
  split at valid
  · simp at valid
  next periods =>
  split at valid
  · simp at valid
  split at valid
  · simp at valid
  next last =>
  split at valid
  · simp at valid
  next ordered =>
  split at valid
  next budget =>
    simp only [not_or, ne_eq, not_not] at periods
    obtain ⟨now, availability, outputTick, poll, -, signalSample⟩ := periods
    have ascending := (orderedFrom_spec (by simpa using ordered)).2
    refine ⟨now, ⟨Nat.pos_of_ne_zero availability, Nat.pos_of_ne_zero outputTick,
      Nat.pos_of_ne_zero poll, ?_⟩, ascending, ?_, budget⟩
    · intro period present
      refine Nat.pos_of_ne_zero fun zero => signalSample ?_
      rw [present, zero]
    · -- The times ascend, so the last one bounds them all.
      intro time mem
      rcases List.eq_nil_or_concat frames with rfl | ⟨front, final, rfl⟩
      · simp at mem
      · have bound : final.relativeTimeUs ≤ options.endTimeUs := by simpa using last
        rw [List.concat_eq_append, List.map_append] at mem ascending
        rcases List.mem_append.mp mem with mem | mem
        · exact ((List.pairwise_append.mp ascending).2.2 _ mem _ (by simp)).trans bound
        · rw [List.map_singleton, List.mem_singleton] at mem
          exact mem ▸ bound
  · simp at valid

/-! ### The timetable of a replay -/

/-- The periods of the cadences. -/
def cadencePeriod (options : ReplayScheduleOptions) (cadences : Cadences) : ReplayEventKind → ℕ
  | .timeout => options.availabilityPeriodUs
  | .poll => options.pollPeriodUs
  | .signalSample => cadences.signalSamplePeriodUs.getD 0
  | .outputTick => cadences.outputTickPeriodUs
  | .frame | .endOfStream => 0

/-- The cadences of a run, in their order of service. -/
def cadenceOrder (cadences : Cadences) : List ReplayEventKind :=
  [.timeout, .poll] ++
    ((cadences.signalSamplePeriodUs.map fun _ => ReplayEventKind.signalSample).toList ++
      [.outputTick])

theorem mem_cadenceOrder {kind : ReplayEventKind} :
    kind ∈ cadenceOrder cadences ↔ kind = .timeout ∨ kind = .poll ∨ kind = .outputTick ∨
      kind = .signalSample ∧ cadences.signalSamplePeriodUs.isSome := by
  unfold cadenceOrder
  rcases cadences.signalSamplePeriodUs with _ | period <;> cases kind <;> simp

/-- **The timetable of a replay.** -/
def timetable (options : ReplayScheduleOptions) (cadences : Cadences)
    (positive : Positive options cadences) : Timetable ReplayEventKind where
  arrival := .frame
  ended := .endOfStream
  order := cadenceOrder cadences
  rank := dispatchRank
  ranked := by
    unfold cadenceOrder
    rcases cadences.signalSamplePeriodUs with _ | period <;> simp [dispatchRank]
  period := cadencePeriod options cadences
  period_pos := by
    intro kind mem
    rcases mem_cadenceOrder.mp mem with rfl | rfl | rfl | ⟨rfl, present⟩
    · exact positive.availability
    · exact positive.poll
    · exact positive.outputTick
    · obtain ⟨period, present⟩ := Option.isSome_iff_exists.mp present
      have advances := positive.signalSample period present
      simpa only [cadencePeriod, present, Option.getD_some] using advances
  late := fun kind => kind = .timeout
  horizon := options.endTimeUs

/-- What the timetable sees of a run. -/
def Run.view (r : Run P) : Timetable.State ReplayEventKind where
  arrivals := r.controller.pending.map (·.relativeTimeUs)
  finished := r.result.endOfStream
  due := fun
    | .timeout => r.availability
    | .poll => r.poll
    | .signalSample => r.signalSample
    | .outputTick => r.outputTick
    | .frame | .endOfStream => none
  log := r.events.map fun e => (e.timeUs, e.kind)

/-- The recorded times of a kind of event. -/
def Run.timesOf (r : Run P) (kind : ReplayEventKind) : List MonotonicTimestamp :=
  (r.events.filter (·.kind = kind)).map (·.timeUs)

theorem timesOf_view (r : Run P) (kind : ReplayEventKind) :
    Timetable.timesOf kind r.view.log = r.timesOf kind := by
  simp only [Timetable.timesOf, Run.timesOf, Run.view, List.filter_map, List.map_map,
    Function.comp_def]

/-- The counter that the result keeps for a kind of event. -/
def ReplayScheduleResult.count (result : ReplayScheduleResult) : ReplayEventKind → ℕ
  | .frame => result.framesDelivered
  | .endOfStream => result.endOfStream.toNat
  | .timeout => result.timeoutPublications
  | .poll => result.polledSamples
  | .outputTick => result.outputTicks
  | .signalSample => result.signalSamples

/-- A run in which nothing has failed: the controller works, every frame was received or is
pending, and the counters agree with the record. -/
structure Sound (frames : List TimedCanFrame) (cadences : Cadences) (r : Run P) : Prop where
  status : r.result.status = .ok
  running : r.controller.state = .running
  received : r.controller.received ++ r.controller.pending.map (·.frame) = frames.map (·.frame)
  counted : ∀ kind, r.result.count kind = (r.timesOf kind).length
  /-- Without observers no signal sample is ever due. -/
  unobserved : cadences.signalSamplePeriodUs = none → r.signalSample = none

/-! ### Steps of the controller -/

section Controller

variable {stages : Stages P} {c : ReplayController P} (running : c.state = .running)

include running

theorem operate_ok (status : ReplayControllerStatus)
    {operation : MonotonicTimestamp → P → Bool × P}
    (works : ∀ now p, (operation now p).1 = true) (now : MonotonicTimestamp) :
    ∃ p, c.operate stages now operation status = (.ok, { c with stages := p }) := by
  refine ⟨(operation now c.stages).2, ?_⟩
  simp [operate, running, works]

variable (good : stages.AlwaysOk) (now : MonotonicTimestamp)

include good

theorem processTimeout_ok : ∃ p, c.processTimeout stages now = (⟨.ok, .timeout⟩,
    { c with stages := p }) := by
  refine ⟨(stages.publish now .timeout none c.stages).2, ?_⟩
  simp [processTimeout, processInput, running,
    gatedReceive, good.publish]

theorem processNextFrame_frame {timed : TimedCanFrame} {rest : List TimedCanFrame}
    (next : c.pending = timed :: rest) (due : timed.relativeTimeUs ≤ now) :
    ∃ p, c.processNextFrame stages now = (⟨.ok, .frame⟩,
      { c with pending := rest, received := c.received ++ [timed.frame], stages := p }) := by
  refine ⟨(stages.publish now .frame (some timed.frame) c.stages).2, ?_⟩
  have come : ¬ now < timed.relativeTimeUs := Nat.not_lt.mpr due
  simp [processNextFrame, processInput, running, next, come,
    nextFrameTime, gatedReceive, sourceReceive,
    ReplayAcquisitionSource.receive, good.publish]

theorem processNextFrame_end (exhausted : c.pending = []) :
    ∃ p, c.processNextFrame stages now = (⟨.ok, .endOfStream⟩, { c with stages := p }) := by
  refine ⟨(stages.publish now .timeout none c.stages).2, ?_⟩
  simp [processNextFrame, processInput, running, exhausted,
    nextFrameTime, gatedReceive, sourceReceive,
    ReplayAcquisitionSource.receive, good.publish]

end Controller

/-! ### A round of the scheduler -/

section Round

variable {stages : Stages P} {options : ReplayScheduleOptions} {cadences : Cadences}
  {frames : List TimedCanFrame} {due : MonotonicTimestamp} {r : Run P}

section

variable (sound : Sound frames cadences r)
include sound

/-- The state of the collaborators is their own. -/
theorem Sound.withStages (p : P) :
    Sound frames cadences { r with controller := { r.controller with stages := p } } :=
  ⟨sound.status, sound.running, sound.received, sound.counted, sound.unobserved⟩

/-- An event that is recorded and counted keeps the run sound. -/
theorem Sound.recorded {next : Run P} (kind : ReplayEventKind)
    (events : next.events = r.events ++ [⟨due, kind⟩]) (counted : ∀ other, next.result.count other =
      r.result.count other + if kind = other then 1 else 0) (status : next.result.status = .ok)
    (running : next.controller.state = .running)
    (received : next.controller.received ++ next.controller.pending.map (·.frame) =
      r.controller.received ++ r.controller.pending.map (·.frame))
    (unobserved : cadences.signalSamplePeriodUs = none → next.signalSample = none) :
    Sound frames cadences next := by
  refine ⟨status, running, received.trans sound.received, fun other => ?_, unobserved⟩
  have times : next.timesOf other = r.timesOf other ++ if kind = other then [due] else [] := by
    rw [Run.timesOf, events, List.filter_append, List.map_append]
    by_cases same : kind = other <;> simp [same, Run.timesOf]
  rw [counted, sound.counted, times, List.length_append]
  split <;> rfl

theorem Sound.whenOk (work : Run P → Run P) : r.whenOk work = work r := by
  simp only [Run.whenOk, Run.ok, sound.status, decide_true, if_true]

/-- Without observers the round serves no signal sample. -/
theorem Sound.sampleObservers_idle (unobserved : cadences.signalSamplePeriodUs = none) :
    r.sampleObservers stages options cadences due = r := by
  unfold Run.sampleObservers
  rw [sound.unobserved unobserved]
  rfl

end

/-- What a piece of a round does to a sound run: it stays sound, at the same time, and the
timetable sees the work `seen`. -/
structure Does (frames : List TimedCanFrame) (cadences : Cadences) (r next : Run P)
    (seen : Timetable.State ReplayEventKind → Timetable.State ReplayEventKind) : Prop where
  sound : Sound frames cadences next
  now : next.now = r.now
  view : next.view = seen r.view

theorem Does.trans {next last : Run P} {seen work}
    (first : Does frames cadences r next seen) (second : Does frames cadences next last work) :
    Does frames cadences r last (work ∘ seen) :=
  ⟨second.sound, second.now.trans first.now, by rw [second.view, first.view]; rfl⟩

theorem passGate_ok (good : stages.AlwaysOk) (due : MonotonicTimestamp) (r : Run P) :
    ∃ p, r.passGate stages due = { r with controller := { r.controller with stages := p } } := by
  rcases present : stages.gate with _ | gate
  · refine ⟨r.controller.stages, ?_⟩
    simp [Run.passGate, Run.admitted, present]
  · refine ⟨(gate due r.controller.stages).2, ?_⟩
    simp [Run.passGate, Run.admitted, present, good.gate gate present]

variable (good : stages.AlwaysOk) (sound : Sound frames cadences r)

include good sound

theorem deliverFrame_ok {timed : TimedCanFrame} {rest : List TimedCanFrame}
    (next : r.controller.pending = timed :: rest) (now : r.now = due)
    (time : timed.relativeTimeUs = due) :
    (r.deliverFrame stages due).controller.pending = rest ∧
      Does frames cadences r (r.deliverFrame stages due) fun s =>
        { s with
          arrivals := rest.map (·.relativeTimeUs), log := s.log ++ [(due, .frame)] } := by
  have come : timed.relativeTimeUs ≤ r.now := (time.trans now.symm).le
  obtain ⟨p, step⟩ := processNextFrame_frame sound.running good r.now next come
  have run : r.deliverFrame stages due =
      { r with
        controller := { r.controller with
          pending := rest, received := r.controller.received ++ [timed.frame], stages := p }
        result := { r.result with framesDelivered := r.result.framesDelivered + 1 }
        events := r.events ++ [⟨due, .frame⟩] } := by
    simp [Run.deliverFrame, step, Run.record]
  rw [run]
  refine ⟨rfl, sound.recorded .frame rfl ?_ sound.status sound.running ?_ sound.unobserved, rfl, ?_⟩
  · intro other
    cases other <;> rfl
  · simp [next]
  · simp [Run.view]

omit sound in
theorem deliverFrames_ok (positive : Positive options cadences) (rounds : ℕ)
    (sound : Sound frames cadences r) (now : r.now = due)
    (enough : r.controller.pending.length ≤ rounds) :
    Does frames cadences r (Run.deliverFrames stages due rounds r)
      ((timetable options cadences positive).arrive · due) := by
  induction rounds generalizing r with
  | zero =>
    have idle : r.view.arrivals.head? ≠ some due := by
      simp [Run.view, List.eq_nil_of_length_eq_zero (Nat.le_zero.mp enough)]
    exact ⟨sound, rfl, (Timetable.arrive_idle idle).symm⟩
  | succ rounds ih =>
    unfold Run.deliverFrames
    by_cases next : r.controller.nextFrameTime = some due
    · -- A frame is due: it is delivered, and the others follow.
      rw [if_pos next]
      obtain ⟨timed, head, time⟩ := Option.map_eq_some_iff.mp next
      obtain ⟨rest, pending⟩ := List.head?_eq_some_iff.mp head
      obtain ⟨left, delivered⟩ := deliverFrame_ok good sound pending now time
      have fewer : (r.deliverFrame stages due).controller.pending.length ≤ rounds := by
        rw [left]
        rw [pending, List.length_cons] at enough
        omega
      rw [delivered.sound.whenOk]
      obtain ⟨sound', now', view⟩ := ih delivered.sound (delivered.now.trans now) fewer
      refine ⟨sound', now'.trans delivered.now, ?_⟩
      have first : r.view.arrivals = due :: rest.map (·.relativeTimeUs) := by
        simp [Run.view, pending, time]
      rw [view, delivered.view, Timetable.arrive_cons first]
      rfl
    · rw [if_neg next]
      have idle : r.view.arrivals.head? ≠ some due := by
        simpa only [Run.view, List.head?_map, nextFrameTime, ne_eq] using next
      exact ⟨sound, rfl, (Timetable.arrive_idle idle).symm⟩

theorem endStream_ok (positive : Positive options cadences) (due : MonotonicTimestamp) :
    Does frames cadences r (r.endStream stages due)
      ((timetable options cadences positive).finish · due) := by
  unfold Run.endStream
  by_cases last : r.result.endOfStream = false ∧ r.controller.nextFrameTime = none
  · obtain ⟨going, none⟩ := last
    have exhausted : r.controller.pending = [] :=
      List.head?_eq_none_iff.mp (Option.map_eq_none_iff.mp none)
    obtain ⟨p, step⟩ := processNextFrame_end sound.running good r.now exhausted
    rw [if_pos ⟨going, none⟩, step]
    refine ⟨sound.recorded .endOfStream rfl ?_ sound.status sound.running rfl sound.unobserved,
      rfl, ?_⟩
    · intro other
      cases other <;> simp [Run.record, ReplayScheduleResult.count, going]
    · simp [Timetable.finish, Run.view, Run.record, going, exhausted, timetable]
  · rw [if_neg last]
    have idle : ¬ (r.view.finished = false ∧ r.view.arrivals = []) := by
      simpa [Run.view, nextFrameTime] using last
    exact ⟨sound, rfl, (if_neg idle).symm⟩

/-- The gate lets the round pass, and the clock moves to its time. -/
theorem reach_ok (waited : r.now ≤ due) :
    ∃ moved : Run P, (r.passGate stages due).whenOk (Run.advance due) = moved ∧
      Sound frames cadences moved ∧ moved.now = due ∧ moved.view = r.view := by
  obtain ⟨p, gate⟩ := passGate_ok good due r
  rw [gate, (sound.withStages p).whenOk]
  refine ⟨{ r with controller := { r.controller with stages := p }, now := due }, ?_,
    ⟨sound.status, sound.running, sound.received, sound.counted, sound.unobserved⟩, rfl, rfl⟩
  unfold Run.advance
  split
  · rfl
  · next not_before =>
    have now : due = r.now := Nat.le_antisymm (Nat.not_lt.mp not_before) waited
    rw [if_pos now, now]

/-! The cadences -/

variable (positive : Positive options cadences) (reached : due ≤ options.endTimeUs)

include reached

omit good sound in
/-- The deadline of the scheduler is the next time of the timetable. -/
theorem nextDeadline_eq (kind : ReplayEventKind) :
    nextDeadline due (cadencePeriod options cadences kind) options.endTimeUs =
      (timetable options cadences positive).next due kind :=
  nextDeadline_exact reached options.endTimeUs_le

omit good in
/-- A cadence that was due is served: its next time is that of the timetable. -/
theorem Sound.served {next : Run P} (kind : ReplayEventKind)
    (served : r.view.due kind = some due)
    (events : next.events = r.events ++ [⟨due, kind⟩])
    (counted : ∀ other, next.result.count other =
      r.result.count other + if kind = other then 1 else 0)
    (status : next.result.status = .ok) (finished : next.result.endOfStream = r.result.endOfStream)
    (controller : ∃ p, next.controller = { r.controller with stages := p })
    (times : ∀ other, next.view.due other = Function.update r.view.due kind
      (nextDeadline due (cadencePeriod options cadences kind) options.endTimeUs) other)
    (unobserved : cadences.signalSamplePeriodUs = none → next.signalSample = none)
    (now : next.now = r.now) :
    Does frames cadences r next ((timetable options cadences positive).serve · due kind) := by
  obtain ⟨p, controller⟩ := controller
  refine ⟨sound.recorded kind events counted status ?_ ?_ unobserved, now, ?_⟩
  · rw [controller]
    exact sound.running
  · rw [controller]
  · have log : next.view.log = r.view.log ++ [(due, kind)] := by
      simp only [Run.view, events, List.map_append, List.map_cons, List.map_nil]
    have arrivals : next.view.arrivals = r.view.arrivals := by
      simp only [Run.view, controller]
    rw [Timetable.serve, if_pos served]
    calc next.view = ⟨next.view.arrivals, next.view.finished, next.view.due, next.view.log⟩ := rfl
      _ = _ := by
        rw [arrivals, funext times, nextDeadline_eq positive reached, log]
        exact congrArg (Timetable.State.mk _ · _ _) finished

theorem serviceAvailability_ok :
    Does frames cadences r (r.serviceAvailability stages options due)
      ((timetable options cadences positive).serve · due .timeout) := by
  unfold Run.serviceAvailability
  by_cases served : r.availability = some due
  · obtain ⟨p, step⟩ := processTimeout_ok sound.running good r.now
    rw [if_pos served, step]
    exact sound.served positive reached .timeout served rfl (fun other => by cases other <;> rfl)
      sound.status rfl ⟨p, rfl⟩ (fun other => by cases other <;> rfl) sound.unobserved rfl
  · rw [if_neg served]
    exact ⟨sound, rfl, (if_neg served).symm⟩

theorem samplePolls_ok :
    Does frames cadences r (r.samplePolls stages options due)
      ((timetable options cadences positive).serve · due .poll) := by
  unfold Run.samplePolls samplePolledRules
  by_cases served : r.poll = some due
  · obtain ⟨p, step⟩ := operate_ok sound.running .telemetryFault good.samplePolledRules r.now
    rw [if_pos served, step]
    exact sound.served positive reached .poll served rfl (fun other => by cases other <;> rfl)
      sound.status rfl ⟨p, rfl⟩ (fun other => by cases other <;> rfl) sound.unobserved rfl
  · rw [if_neg served]
    exact ⟨sound, rfl, (if_neg served).symm⟩

theorem sampleObservers_ok (observed : cadences.signalSamplePeriodUs.isSome) :
    Does frames cadences r (r.sampleObservers stages options cadences due)
      ((timetable options cadences positive).serve · due .signalSample) := by
  unfold Run.sampleObservers sampleSignals
  obtain ⟨period, present⟩ := Option.isSome_iff_exists.mp observed
  by_cases served : r.signalSample = some due
  · obtain ⟨p, step⟩ := operate_ok sound.running .telemetryFault good.sampleSignals r.now
    rw [if_pos served, step, present, Option.bind_some]
    have periodic : cadencePeriod options cadences .signalSample = period := by
      rw [cadencePeriod, present, Option.getD_some]
    exact sound.served positive reached .signalSample served rfl
      (fun other => by cases other <;> rfl) sound.status rfl ⟨p, rfl⟩
      (fun other => by rw [periodic]; cases other <;> rfl)
      (fun absent => by simp [present] at absent) rfl
  · rw [if_neg served]
    exact ⟨sound, rfl, (if_neg served).symm⟩

theorem tickOutput_ok :
    Does frames cadences r (r.tickOutput stages options cadences due)
      ((timetable options cadences positive).serve · due .outputTick) := by
  unfold Run.tickOutput tickOutput
  by_cases served : r.outputTick = some due
  · obtain ⟨p, step⟩ := operate_ok sound.running .outputFault good.tick r.now
    rw [if_pos served, step]
    exact sound.served positive reached .outputTick served rfl (fun other => by cases other <;> rfl)
      sound.status rfl ⟨p, rfl⟩ (fun other => by cases other <;> rfl) sound.unobserved rfl
  · rw [if_neg served]
    exact ⟨sound, rfl, (if_neg served).symm⟩

/-- **A round of the scheduler is a round of the timetable.** -/
theorem iteration_ok (waited : r.now ≤ due) :
    Sound frames cadences (r.iteration stages options cadences due) ∧
      (r.iteration stages options cadences due).now = due ∧
      (r.iteration stages options cadences due).view =
        (timetable options cadences positive).round r.view due := by
  obtain ⟨moved, arrives, start, now, seen⟩ := reach_ok good sound waited
  unfold Run.iteration
  rw [arrives, start.whenOk, ← seen]
  -- Each piece is seen by the timetable as its own.
  have delivered := deliverFrames_ok good positive _ start now le_rfl
  rw [delivered.sound.whenOk]
  have ended := delivered.trans (endStream_ok good delivered.sound positive due)
  rw [ended.sound.whenOk]
  have timed := ended.trans (serviceAvailability_ok good ended.sound positive reached)
  rw [timed.sound.whenOk]
  have polled := timed.trans (samplePolls_ok good timed.sound positive reached)
  rw [polled.sound.whenOk]
  by_cases observed : cadences.signalSamplePeriodUs.isSome
  · have sampled := polled.trans (sampleObservers_ok good polled.sound positive reached observed)
    rw [sampled.sound.whenOk]
    have ticked := sampled.trans (tickOutput_ok good sampled.sound positive reached)
    refine ⟨ticked.sound, ticked.now.trans now, ticked.view.trans ?_⟩
    obtain ⟨period, present⟩ := Option.isSome_iff_exists.mp observed
    have order : (timetable options cadences positive).order =
        [.timeout, .poll, .signalSample, .outputTick] := by
      simp [timetable, cadenceOrder, present]
    rw [Timetable.round, order]
    rfl
  · -- Without observers no signal sample is due.
    have unobserved : cadences.signalSamplePeriodUs = none :=
      Option.not_isSome_iff_eq_none.mp observed
    rw [polled.sound.sampleObservers_idle unobserved, polled.sound.whenOk]
    have ticked := polled.trans (tickOutput_ok good polled.sound positive reached)
    refine ⟨ticked.sound, ticked.now.trans now, ticked.view.trans ?_⟩
    have order : (timetable options cadences positive).order = [.timeout, .poll, .outputTick] := by
      simp [timetable, cadenceOrder, unobserved]
    rw [Timetable.round, order]
    rfl

end Round

/-! ### The loop -/

theorem includeEarlier_min (l : List ℕ) (candidate : Option ℕ) :
    includeEarlier l.min? candidate = (l ++ candidate.toList).min? := by
  rcases candidate with _ | candidate
  · simp [includeEarlier]
  · rcases least : l.min? with _ | earliest
    · simp [includeEarlier, List.min?_eq_none_iff.mp least]
    · obtain ⟨mem, least⟩ := List.min?_eq_some_iff.mp least
      symm
      simp only [includeEarlier, Option.toList_some, List.min?_eq_some_iff, List.mem_append,
        List.mem_singleton]
      split
      · next less =>
        refine ⟨.inr rfl, ?_⟩
        rintro u (mem | rfl)
        · exact less.le.trans (least u mem)
        · exact le_rfl
      · next not_less =>
        refine ⟨.inl mem, ?_⟩
        rintro u (mem | rfl)
        · exact least u mem
        · exact Nat.not_lt.mp not_less

theorem head?_eq_min? {l : List ℕ} (ascending : l.Pairwise (· ≤ ·)) : l.head? = l.min? := by
  rcases l with _ | ⟨first, rest⟩
  · rfl
  · symm
    refine List.min?_eq_some_iff.mpr ⟨List.mem_cons_self .., fun u mem => ?_⟩
    rcases List.mem_cons.mp mem with rfl | mem
    · exact le_rfl
    · exact (List.pairwise_cons.mp ascending).1 u mem

section Loop

variable {stages : Stages P} {options : ReplayScheduleOptions} {cadences : Cadences}
  {frames : List TimedCanFrame} {r : Run P} (positive : Positive options cadences)

/-- The scheduler takes the earliest time of the timetable. -/
theorem nextDue_eq (sound : Sound frames cadences r)
    (ascending : (r.controller.pending.map (·.relativeTimeUs)).Pairwise (· ≤ ·)) :
    r.nextDue = ((timetable options cadences positive).upcoming r.view).min? := by
  have head : r.controller.nextFrameTime = r.view.arrivals.min? := by
    rw [nextFrameTime, ← List.head?_map]
    exact head?_eq_min? ascending
  have sources : (cadenceOrder cadences).filterMap r.view.due =
      r.availability.toList ++ r.poll.toList ++ r.signalSample.toList ++ r.outputTick.toList := by
    unfold cadenceOrder
    rw [List.filterMap_eq_flatMap_toList]
    rcases present : cadences.signalSamplePeriodUs with _ | period
    · simp [Run.view, sound.unobserved present]
    · simp [Run.view]
  unfold Run.nextDue
  dsimp only
  rw [head, includeEarlier_min, includeEarlier_min, includeEarlier_min, includeEarlier_min,
    Timetable.upcoming]
  refine congrArg List.min? ?_
  refine Eq.trans ?_ (congrArg (r.view.arrivals ++ ·) sources).symm
  simp only [List.append_assoc]

/-- What holds between the rounds of a replay. -/
structure Between (frames : List TimedCanFrame) (positive : Positive options cadences)
    (r : Run P) : Prop where
  sound : Sound frames cadences r
  waited : ∀ u ∈ (timetable options cadences positive).upcoming r.view, r.now ≤ u
  inside : r.now ≤ options.endTimeUs

variable {positive} (good : stages.AlwaysOk)
  (ascending : (frames.map (·.relativeTimeUs)).Pairwise (· ≤ ·))
  (inside : ∀ time ∈ frames.map (·.relativeTimeUs), time ≤ options.endTimeUs)

include good ascending inside

/-- **The step lemma**: a round of the loop is a step of the timetable, and keeps what holds between
the rounds. -/
theorem round_view (between : Between frames positive r)
    (inv : (timetable options cadences positive).Inv (frames.map (·.relativeTimeUs)) r.view) :
    (timetable options cadences positive).step r.view =
      (r.round stages options cadences).map Run.view ∧
    ∀ next, r.round stages options cadences = some next → Between frames positive next := by
  obtain ⟨sound, waited, -⟩ := between
  have pending := ascending.sublist inv.arrivals_suffix.sublist
  have due := nextDue_eq positive sound pending
  have ok : r.ok = true := by simp only [Run.ok, sound.status, decide_true]
  unfold Run.round Timetable.step
  rw [if_pos ok, due]
  rcases earliest : ((timetable options cadences positive).upcoming r.view).min? with _ | t
  · exact ⟨rfl, fun next none => by simp at none⟩
  · obtain ⟨mem, least⟩ := List.min?_eq_some_iff.mp earliest
    have reached : t ≤ options.endTimeUs := inv.upcoming_le inside mem
    obtain ⟨sound', now, view⟩ := iteration_ok good sound positive reached (waited t mem)
    refine ⟨congrArg some view.symm, fun next round => ?_⟩
    obtain rfl := Option.some.inj round
    refine ⟨sound', fun u coming => ?_, now.le.trans reached⟩
    rw [view] at coming
    exact now.le.trans (Timetable.lt_of_mem_round inv ascending least coming).le

end Loop

/-! ### The whole replay -/

/-- One event is recorded no later than another, and at the same time in the order of service. -/
def InOrder (a b : ReplayEvent) : Prop :=
  a.timeUs < b.timeUs ∨ a.timeUs = b.timeUs ∧ dispatchRank a.kind ≤ dispatchRank b.kind

/-- What a replay has done at its end. -/
structure Scheduled (frames : List TimedCanFrame) (options : ReplayScheduleOptions)
    (cadences : Cadences) (run : Run P) : Prop where
  status : run.result.status = .ok
  /-- Every frame was handed to the worker, once and in order, and recorded at its time. -/
  received : run.controller.received = frames.map (·.frame)
  frames : run.timesOf .frame = frames.map (·.relativeTimeUs)
  endOfStream : (run.timesOf .endOfStream).length = 1
  timeouts : run.timesOf .timeout =
    (List.range (timeoutCount options)).map fun i => (i + 1) * options.availabilityPeriodUs
  polls : run.timesOf .poll =
    (List.range (pollCount options)).map fun i => i * options.pollPeriodUs
  outputTicks : run.timesOf .outputTick =
    (List.range (outputTickCount options cadences)).map fun i => i * cadences.outputTickPeriodUs
  signalSamples : ∀ period, cadences.signalSamplePeriodUs = some period →
    run.timesOf .signalSample =
      (List.range (signalSampleCount options cadences)).map fun i => i * period
  unobserved : cadences.signalSamplePeriodUs = none → run.timesOf .signalSample = []
  /-- The counters of the result are the counts of the record. -/
  counted : ∀ kind, run.result.count kind = (run.timesOf kind).length
  ordered : run.events.Pairwise InOrder
  within : ∀ e ∈ run.events, e.timeUs ≤ options.endTimeUs
  budget : (run.events.filter (·.kind ≠ .frame)).length ≤ kMaximumScheduledEvents

section Replay

variable {stages : Stages P} {options : ReplayScheduleOptions} {cadences : Cadences}
  {frames : List TimedCanFrame} {r : Run P}

/-- The events that are not frames are those of the other kinds. -/
theorem length_not_frame (r : Run P) :
    (r.events.filter (·.kind ≠ .frame)).length =
      (r.timesOf .endOfStream).length + (r.timesOf .timeout).length + (r.timesOf .poll).length +
        (r.timesOf .signalSample).length + (r.timesOf .outputTick).length := by
  simp only [Run.timesOf, List.length_map]
  induction r.events with
  | nil => rfl
  | cons e events ih =>
    rcases e with ⟨time, _ | _ | _ | _ | _ | _⟩ <;> simp at ih ⊢ <;> omega

section Complete

variable {positive : Positive options cadences}
  (complete : (timetable options cadences positive).Complete
    (frames.map (·.relativeTimeUs)) r.view)

include complete

/-- A cadence was served at all of its times. -/
theorem timesOf_cadence {kind : ReplayEventKind} (mem : kind ∈ cadenceOrder cadences) :
    r.timesOf kind = (timetable options cadences positive).ticks kind
      ((timetable options cadences positive).quota kind) := by
  rw [← timesOf_view]
  exact complete.served kind mem

theorem timesOf_timeout : r.timesOf .timeout =
    (List.range (timeoutCount options)).map fun i => (i + 1) * options.availabilityPeriodUs :=
  timesOf_cadence complete (mem_cadenceOrder.mpr (.inl rfl))

theorem timesOf_poll : r.timesOf .poll =
    (List.range (pollCount options)).map fun i => i * options.pollPeriodUs :=
  timesOf_cadence complete (mem_cadenceOrder.mpr (.inr (.inl rfl)))

theorem timesOf_outputTick : r.timesOf .outputTick =
    (List.range (outputTickCount options cadences)).map
      fun i => i * cadences.outputTickPeriodUs :=
  timesOf_cadence complete (mem_cadenceOrder.mpr (.inr (.inr (.inl rfl))))

theorem timesOf_signalSample {period : Microseconds}
    (present : cadences.signalSamplePeriodUs = some period) : r.timesOf .signalSample =
      (List.range (signalSampleCount options cadences)).map fun i => i * period := by
  have observed : ReplayEventKind.signalSample ∈ cadenceOrder cadences :=
    mem_cadenceOrder.mpr (.inr (.inr (.inr ⟨rfl, by rw [present]; rfl⟩)))
  simpa [Timetable.ticks, Timetable.quota, timetable, cadencePeriod, signalSampleCount, present]
    using timesOf_cadence complete observed

/-- Without observers no signal sample is recorded. -/
theorem timesOf_unobserved (absent : cadences.signalSamplePeriodUs = none) :
    r.timesOf .signalSample = [] := by
  rw [Run.timesOf, List.map_eq_nil_iff, List.filter_eq_nil_iff]
  intro e mem same
  have known := complete.known (e.timeUs, e.kind) (List.mem_map_of_mem mem)
  rw [of_decide_eq_true same] at known
  simp [timetable, mem_cadenceOrder, absent] at known

/-- The events that are not frames are those that the budget counted. -/
theorem length_not_frame_le (budget : fitsEventBudget options cadences = true) :
    (r.events.filter (·.kind ≠ .frame)).length ≤ kMaximumScheduledEvents := by
  have marked : (r.timesOf .endOfStream).length = 1 := by
    rw [← timesOf_view]
    exact complete.marked
  have samples : (r.timesOf .signalSample).length = signalSampleCount options cadences := by
    rcases present : cadences.signalSamplePeriodUs with _ | period
    · rw [timesOf_unobserved complete present, signalSampleCount, present]
      rfl
    · rw [timesOf_signalSample complete present, List.length_map, List.length_range]
  have counted := fitsEventBudget_spec budget
  rw [length_not_frame, marked, samples, timesOf_timeout complete, timesOf_poll complete,
    timesOf_outputTick complete]
  simp only [List.length_map, List.length_range]
  omega

/-- A replay whose timetable is complete has done its schedule. -/
theorem scheduled_of_complete (budget : fitsEventBudget options cadences = true)
    (sound : Sound frames cadences r) (exhausted : r.controller.pending = []) :
    Scheduled frames options cadences r where
  status := sound.status
  received := by
    have received := sound.received
    rwa [exhausted, List.map_nil, List.append_nil] at received
  frames := by
    rw [← timesOf_view]
    exact complete.arrived
  endOfStream := by
    rw [← timesOf_view]
    exact complete.marked
  timeouts := timesOf_timeout complete
  polls := timesOf_poll complete
  outputTicks := timesOf_outputTick complete
  signalSamples := fun _ present => timesOf_signalSample complete present
  unobserved := timesOf_unobserved complete
  counted := sound.counted
  ordered := (List.pairwise_map.mp complete.sorted : r.events.Pairwise _)
  within := fun e mem => complete.within (e.timeUs, e.kind) (List.mem_map_of_mem mem)
  budget := length_not_frame_le complete budget

end Complete

theorem stop_ok (good : stages.AlwaysOk) {c : ReplayController P} (running : c.state = .running)
    (now : MonotonicTimestamp) :
    ∃ p, c.stop stages now = (.ok, { c with state := .stopped, stages := p }) := by
  refine ⟨(stages.stop now (stages.failOff now (stages.stopTelemetry c.stages).2).2).2, ?_⟩
  simp [stop, running, good.stopTelemetry, good.failOff, good.stop]

/-- After the loop the clock reaches the horizon, and the controller stops. -/
theorem finish_ok (options : ReplayScheduleOptions) (good : stages.AlwaysOk)
    (sound : Sound frames cadences r) (inside : r.now ≤ options.endTimeUs) : ∃ p,
    r.finish stages options =
      { r with
        now := options.endTimeUs
        controller := { r.controller with state := .stopped, stages := p }
        result := { r.result with stopStatus := .ok } } := by
  have ok : r.ok = true := by simp only [Run.ok, sound.status, decide_true]
  have moved : ∃ p, (if r.ok ∧ r.now < options.endTimeUs then r.passGate stages options.endTimeUs
        else r).whenOk (Run.advance options.endTimeUs) =
      { r with
        now := options.endTimeUs, controller := { r.controller with stages := p } } := by
    by_cases early : r.now < options.endTimeUs
    · obtain ⟨p, gate⟩ := passGate_ok good options.endTimeUs r
      refine ⟨p, ?_⟩
      rw [if_pos ⟨ok, early⟩, gate, (sound.withStages p).whenOk]
      exact if_pos early
    · have now : options.endTimeUs = r.now := Nat.le_antisymm (Nat.not_lt.mp early) inside
      refine ⟨r.controller.stages, ?_⟩
      rw [if_neg fun h => early h.2, sound.whenOk, Run.advance, if_neg early, if_pos now, now]
  obtain ⟨p, moved⟩ := moved
  obtain ⟨q, stopped⟩ := stop_ok (c := { r.controller with stages := p }) good sound.running
    options.endTimeUs
  refine ⟨q, ?_⟩
  unfold Run.finish
  dsimp only
  rw [moved, stopped]
  simp

/-- The end of a replay keeps what was scheduled. -/
theorem Scheduled.finish {p : P} (scheduled : Scheduled frames options cadences r) :
    Scheduled frames options cadences
      { r with
        now := options.endTimeUs
        controller := { r.controller with state := .stopped, stages := p }
        result := { r.result with stopStatus := .ok } } where
  status := scheduled.status
  received := scheduled.received
  frames := scheduled.frames
  endOfStream := scheduled.endOfStream
  timeouts := scheduled.timeouts
  polls := scheduled.polls
  outputTicks := scheduled.outputTicks
  signalSamples := scheduled.signalSamples
  unobserved := scheduled.unobserved
  counted := fun kind => by
    have same : ({ r.result with stopStatus := .ok } : ReplayScheduleResult).count kind =
      r.result.count kind := by cases kind <;> rfl
    exact same.trans (scheduled.counted kind)
  ordered := scheduled.ordered
  within := scheduled.within
  budget := scheduled.budget

end Replay

/-- The work of the loop of a replay is bounded by its frames and the budget. -/
theorem sum_quota_le (positive : Positive options cadences)
    (budget : fitsEventBudget options cadences = true) :
    ((timetable options cadences positive).order.map
      (timetable options cadences positive).quota).sum ≤ kMaximumScheduledEvents := by
  have counted := fitsEventBudget_spec budget
  have sum : ((timetable options cadences positive).order.map
      (timetable options cadences positive).quota).sum = timeoutCount options +
        (pollCount options + (signalSampleCount options cadences +
          outputTickCount options cadences)) := by
    rcases present : cadences.signalSamplePeriodUs with _ | period
    · simp [timetable, cadenceOrder, Timetable.quota, cadencePeriod, timeoutCount, pollCount,
        outputTickCount, signalSampleCount, present]
    · simp [timetable, cadenceOrder, Timetable.quota, cadencePeriod, timeoutCount, pollCount,
        outputTickCount, signalSampleCount, present]
  omega

/-- The state in which the loop of a replay starts. -/
def startRun (frames : List TimedCanFrame) (options : ReplayScheduleOptions) (cadences : Cadences)
    (initial : P) : Run P where
  now := 0
  controller := { state := .running, pending := frames, stages := initial }
  availability :=
    if options.availabilityPeriodUs ≤ options.endTimeUs then some options.availabilityPeriodUs
    else none
  poll := some 0
  signalSample := cadences.signalSamplePeriodUs.map fun _ => 0
  outputTick := some 0

section Start

variable {options : ReplayScheduleOptions} {cadences : Cadences} {frames : List TimedCanFrame}
  {initial : P}

theorem startRun_sound : Sound frames cadences (startRun frames options cadences initial) where
  status := rfl
  running := rfl
  received := rfl
  counted := fun kind => by cases kind <;> rfl
  unobserved := fun absent => by simp [startRun, absent]

theorem startRun_started (positive : Positive options cadences) :
    (timetable options cadences positive).Started (frames.map (·.relativeTimeUs))
      (startRun frames options cadences initial).view where
  arrivals := rfl
  going := rfl
  due := by
    intro kind mem
    rcases mem_cadenceOrder.mp mem with rfl | rfl | rfl | ⟨rfl, present⟩
    · simp [startRun, Run.view, timetable, Timetable.deadline, cadencePeriod]
    · simp [startRun, Run.view, timetable, Timetable.deadline]
    · simp [startRun, Run.view, timetable, Timetable.deadline]
    · obtain ⟨period, present⟩ := Option.isSome_iff_exists.mp present
      simp [startRun, Run.view, timetable, Timetable.deadline, present]
  log := rfl

/-- A valid replay whose start succeeds runs the loop, and then finishes. -/
theorem runReplay_ok {stages : Stages P} (good : stages.AlwaysOk)
    (valid : validate frames 0 options (resolveCadences stages options) = .ok) (initial : P) :
    ∃ p, ∀ fuel, runReplay stages fuel frames 0 options initial =
      (While.run (fun r => r.round stages options (resolveCadences stages options)) fuel
        (startRun frames options (resolveCadences stages options) p)).map
        (·.finish stages options) := by
  refine ⟨(stages.start 0 initial).2, fun fuel => ?_⟩
  simp [runReplay, valid, start, good.start, startRun]

end Start

/-- **A valid replay does its schedule.** When every collaborator answers Ok, a replay that passes
the checks and the event budget comes to its end, having delivered every frame once and in order
and served each cadence at every one of its times, in order; and no deadline overflows. -/
theorem replay_schedule (stages : Stages P) (good : stages.AlwaysOk)
    (frames : List TimedCanFrame) (now : MonotonicTimestamp) (options : ReplayScheduleOptions)
    (initial : P)
    (valid : validate frames now options (resolveCadences stages options) = .ok) :
    (∃ run : Run P, Scheduled frames options (resolveCadences stages options) run ∧
      ∀ fuel, frames.length + kMaximumScheduledEvents < fuel →
        runReplay stages fuel frames now options initial = some run) ∧
    ∀ current period, current ≤ options.endTimeUs →
      nextDeadline current period options.endTimeUs =
        if current + period ≤ options.endTimeUs then some (current + period) else none := by
  have checks := validate_ok valid
  obtain rfl := checks.now
  obtain ⟨p, runs⟩ := runReplay_ok good valid initial
  refine ⟨?_, fun current period reached => nextDeadline_exact reached options.endTimeUs_le⟩
  -- The loop is seen as the timetable of the replay.
  obtain ⟨last, between, complete, exhausted, loop⟩ := Timetable.runs
    (fun r => round_view good checks.ascending checks.inside)
    checks.ascending checks.inside ⟨.poll, mem_cadenceOrder.mpr (.inr (.inl rfl)), rfl⟩
    (⟨startRun_sound, fun _ _ => Nat.zero_le _, Nat.zero_le _⟩ :
      Between frames checks.positive (startRun frames options (resolveCadences stages options) p))
    (startRun_started checks.positive)
  have scheduled := scheduled_of_complete complete checks.budget between.sound
    (List.map_eq_nil_iff.mp exhausted)
  obtain ⟨q, finished⟩ := finish_ok options good between.sound between.inside
  refine ⟨_, scheduled.finish (p := q), fun fuel enough => ?_⟩
  have work := sum_quota_le checks.positive checks.budget
  rw [runs, loop fuel (by rw [List.length_map]; omega), Option.map_some, finished]

/-- Collaborators without a state, which answer Ok. -/
def quietStages : Stages Unit where
  tickPeriodUs := 20000
  observed := true
  gate := some fun _ _ => (true, ())
  start := fun _ _ => (.ok, ())
  publish := fun _ _ _ _ => (.ok, ())
  samplePolledRules := fun _ _ => (true, ())
  sampleSignals := fun _ _ => (true, ())
  tick := fun _ _ => (true, ())
  failOff := fun _ _ => (true, ())
  stop := fun _ _ => (true, ())
  stopTelemetry := fun _ => ((.ok, true), ())

theorem quietStages_alwaysOk : quietStages.AlwaysOk where
  gate := by
    rintro gate ⟨⟩ now p
    rfl
  start := fun _ _ => rfl
  publish := fun _ _ _ _ => rfl
  samplePolledRules := fun _ _ => rfl
  sampleSignals := fun _ _ => rfl
  tick := fun _ _ => rfl
  failOff := fun _ _ => rfl
  stop := fun _ _ => rfl
  stopTelemetry := fun _ => rfl

/-- Three frames, two of them at one time, under a horizon of a tenth of a second. -/
theorem replay_schedule_three_frames :
    (∃ run : Run Unit,
      Scheduled [⟨0, {}⟩, ⟨30000, { timestampUs := 30000 }⟩, ⟨30000, { timestampUs := 30000 }⟩]
        ⟨100000, 30000, none, 50000, none, by decide⟩ ⟨20000, some 50000⟩ run ∧
      ∀ fuel, 3 + kMaximumScheduledEvents < fuel →
        runReplay quietStages fuel
          [⟨0, {}⟩, ⟨30000, { timestampUs := 30000 }⟩, ⟨30000, { timestampUs := 30000 }⟩] 0
          ⟨100000, 30000, none, 50000, none, by decide⟩ () = some run) :=
  (replay_schedule quietStages quietStages_alwaysOk
    [⟨0, {}⟩, ⟨30000, { timestampUs := 30000 }⟩, ⟨30000, { timestampUs := 30000 }⟩] 0
    ⟨100000, 30000, none, 50000, none, by decide⟩ () (by decide)).1

end AccessoryController.Replay
