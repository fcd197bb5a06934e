import AccessoryController.Replay.StepGate

/-!
# Replay steps are synchronous

Each grant is followed by one receive and one publication, and the epochs of the barrier count
them, so the epoch that a step waits for is the number of its own grant, until the 64-bit epochs
run out. When the wait of a step has succeeded, the worker is parked behind that publication until
the next step or a cancellation.

The invariant is a conjunction of small ones, each about the few components that it names, so that
a move has to keep only those whose components it changes.

## Main definitions

* `Ledger`, `Notes`, `Epochs`, `SourceOpen`, `Control`, `Held`: the parts of the invariant
* `Inv`: what holds in every state that fewer than 2^64 grants lead to
* `Sleepers`: who may sleep, in every reachable state
* `Parked`: the worker is parked behind a publication that is not released
* `OwnPublication`: what a step reported Ok has seen
* `Synchronous`, `Released`: what the step protocol promises

## Main results

* `inv_step`, `sleepers_step`: one move keeps the invariants
* `steps_synchronous`: the law of the step protocol
* `wrapped_step_unpublished`: a step at the end of the epochs
-/

namespace AccessoryController.Replay

open HostReplay Machine
open PublicationBarrier (prepareStep waitFor)

/-- The epoch that the worker is parked at. -/
def WorkerPlace.epoch? : WorkerPlace → Option ℕ
  | .asleepPublish epoch | .wokenPublish epoch => some epoch
  | _ => none

/-- How many granted receives are not followed by their publication yet. -/
def WorkerPlace.unpublished : WorkerPlace → ℕ
  | .noting _ | .processing => 1
  | _ => 0

/-! ### The ledger of the grants -/

/-- Grants, receives and publications follow one another. -/
structure Ledger (worker : WorkerPlace) (gate : GatedReplaySource) (grants : List Grant)
    (results : List Receipt) (published : ℕ) : Prop where
  served : results.length = published + worker.unpublished
  /-- At most one grant is without its publication. -/
  outstanding : results.length ≤ grants.length ∧ grants.length ≤ published + 1
  /-- The receives answer the grants in order. -/
  answered : results.map (·.grant) = grants.take results.length
  pending : gate.grantPending = true →
    grants.length = results.length + 1 ∧ grants.getLast? = some gate.grant
  taken : ∀ grant, worker = .granted grant →
    grants.length = results.length + 1 ∧ grants.getLast? = some grant ∧ gate.grantPending = false

namespace Ledger

variable {worker next : WorkerPlace} {gate after : GatedReplaySource} {grants : List Grant}
  {results : List Receipt} {published : ℕ}

/-- A move of the worker that neither takes a grant nor serves one. -/
theorem move (ledger : Ledger worker gate grants results published)
    (same : next.unpublished = worker.unpublished) (idle : ∀ grant, next ≠ .granted grant) :
    Ledger next gate grants results published :=
  ⟨same ▸ ledger.served, ledger.outstanding, ledger.answered, ledger.pending,
    fun grant there => absurd there (idle grant)⟩

/-- A change of the gate that makes no grant. -/
theorem regate (ledger : Ledger worker gate grants results published)
    (kept : after.grantPending = true → gate.grantPending = true ∧ after.grant = gate.grant) :
    Ledger worker after grants results published := by
  refine ⟨ledger.served, ledger.outstanding, ledger.answered, fun pending => ?_,
    fun grant there => ?_⟩
  · obtain ⟨before, same⟩ := kept pending
    exact same ▸ ledger.pending before
  · obtain ⟨length, last, free⟩ := ledger.taken grant there
    refine ⟨length, last, Bool.eq_false_iff.mpr fun pending => ?_⟩
    rw [(kept pending).1] at free
    exact absurd free (by decide)

/-- The worker takes the pending grant. -/
theorem take (ledger : Ledger .receiving gate grants results published)
    (pending : gate.grantPending = true) :
    Ledger (.granted gate.grant) { gate with grantPending := false } grants results published := by
  obtain ⟨length, last⟩ := ledger.pending pending
  refine ⟨ledger.served, ledger.outstanding, ledger.answered, fun h => by simp at h, ?_⟩
  rintro grant ⟨⟩
  exact ⟨length, last, rfl⟩

/-- The worker serves the grant that it took. -/
theorem serve {grant : Grant} (ledger : Ledger (.granted grant) gate grants results published)
    (status : ReceiveStatus) (exhausted : Bool) :
    Ledger (.noting status) gate grants (results ++ [⟨grant, status, exhausted⟩]) published := by
  obtain ⟨length, last, free⟩ := ledger.taken grant rfl
  have served : results.length = published := ledger.served
  refine ⟨?_, ?_, ?_, fun pending => ?_, fun _ there => by simp at there⟩
  · simp [served, WorkerPlace.unpublished]
  · rw [List.length_append, List.length_singleton]
    omega
  · -- The grant that was taken is the one after those that were served.
    obtain ⟨front, rfl⟩ := List.getLast?_eq_some_iff.mp last
    have front_length : front.length = results.length := by simpa using length
    have answered := ledger.answered
    rw [← front_length, List.take_left] at answered
    simp only [List.map_append, answered, List.map_cons, List.map_nil, List.length_append,
      ← front_length, List.length_singleton]
    exact (List.take_of_length_le (by simp)).symm
  · rw [free] at pending
    exact absurd pending (by decide)

/-- The worker publishes the result of its granted receive. -/
theorem publish (ledger : Ledger .processing gate grants results published)
    (done : next.unpublished = 0) (idle : ∀ grant, next ≠ .granted grant) :
    Ledger next gate grants results (published + 1) := by
  have served : results.length = published + 1 := ledger.served
  refine ⟨by rw [served, done], ?_, ledger.answered, ledger.pending,
    fun g there => absurd there (idle g)⟩
  have := ledger.outstanding
  omega

/-- Between two steps nothing is with the worker. -/
theorem settled (ledger : Ledger worker gate grants results published)
    (settled : grants.length = published) :
    results.length = published ∧ worker.unpublished = 0 ∧ gate.grantPending = false ∧
      ∀ grant, worker ≠ .granted grant := by
  have served := ledger.served
  have bounds := ledger.outstanding
  refine ⟨by omega, by omega, Bool.eq_false_iff.mpr fun pending => ?_, fun grant there => ?_⟩
  · have := (ledger.pending pending).1
    omega
  · have := (ledger.taken grant there).1
    omega

/-- The controller makes a grant. -/
theorem offer (ledger : Ledger worker gate grants results published)
    (settled : grants.length = published) (grant : Grant) :
    Ledger worker { gate with grant, grantPending := true } (grants ++ [grant]) results
      published := by
  obtain ⟨served, -, -, idle⟩ := ledger.settled settled
  refine ⟨ledger.served, ?_, ?_, fun _ => ⟨?_, ?_⟩, fun g there => absurd there (idle g)⟩
  · rw [List.length_append, List.length_singleton]
    omega
  · rw [ledger.answered, List.take_append_of_le_length ledger.outstanding.1]
  · rw [List.length_append, List.length_singleton]
    omega
  · exact List.getLast?_concat

end Ledger

/-! ### What the gate notes -/

/-- The source is as the last granted receive left it, and its result is noted at the gate. -/
structure Notes (worker : WorkerPlace) (last : ReceiveStatus) (pending : List TimedCanFrame)
    (results : List Receipt) : Prop where
  exhausted : ∀ receipt, results.getLast? = some receipt → receipt.exhausted = pending.isEmpty
  noting : ∀ status, worker = .noting status → results.getLast?.map (·.status) = some status
  noted : (∀ status, worker ≠ .noting status) →
    ∀ receipt, results.getLast? = some receipt → last = receipt.status

namespace Notes

variable {worker next : WorkerPlace} {last : ReceiveStatus} {pending : List TimedCanFrame}
  {results : List Receipt}

theorem move (notes : Notes worker last pending results)
    (before : ∀ status, worker ≠ .noting status) (idle : ∀ status, next ≠ .noting status) :
    Notes next last pending results :=
  ⟨notes.exhausted, fun status there => absurd there (idle status), fun _ => notes.noted before⟩

theorem serve (grant : Grant) (status : ReceiveStatus) (rest : List TimedCanFrame) :
    Notes (.noting status) last rest (results ++ [⟨grant, status, rest.isEmpty⟩]) := by
  refine ⟨fun receipt last => ?_, fun other there => ?_, fun idle => absurd rfl (idle status)⟩
  · rw [List.getLast?_concat, Option.some.injEq] at last
    exact last ▸ rfl
  · rw [List.getLast?_concat, Option.map_some]
    exact congrArg some (WorkerPlace.noting.inj there)

theorem note {status : ReceiveStatus} (notes : Notes (.noting status) last pending results) :
    Notes .processing status pending results := by
  refine ⟨notes.exhausted, fun _ there => by simp at there, fun _ receipt last => ?_⟩
  have noted := notes.noting status rfl
  rw [last, Option.map_some, Option.some.injEq] at noted
  exact noted.symm

/-- Nothing was received yet. -/
theorem start (none : results = []) (idle : ∀ status, next ≠ .noting status) :
    Notes next last pending results := by
  subst none
  exact ⟨fun _ h => by simp at h, fun status there => absurd there (idle status),
    fun _ _ h => by simp at h⟩

end Notes

/-! ### The epochs of the barrier -/

/-- While the barrier is not cancelled its epochs count the publications, and the worker parks at
the last one until it is released. -/
structure Epochs (worker : WorkerPlace) (barrier : PublicationBarrier) (published : ℕ) : Prop where
  count : barrier.cancelled = false →
    barrier.completed = published ∧ barrier.released ≤ barrier.completed
  parked : barrier.cancelled = false → ∀ epoch, worker.epoch? = some epoch →
    epoch = barrier.completed
  passed : barrier.cancelled = false → worker.epoch? = none → barrier.released = barrier.completed

variable {epoch : ℕ} (frames : List TimedCanFrame)

namespace Epochs

variable {worker next : WorkerPlace} {barrier : PublicationBarrier} {published : ℕ}

theorem move (epochs : Epochs worker barrier published) (same : next.epoch? = worker.epoch?) :
    Epochs next barrier published :=
  ⟨epochs.count, same ▸ epochs.parked, same ▸ epochs.passed⟩

theorem of_cancelled (cancelled : barrier.cancelled = true) : Epochs worker barrier published := by
  constructor <;> simp [cancelled]

/-- The worker looks at the barrier, and passes or parks again. -/
theorem look (epochs : Epochs (.wokenPublish epoch) barrier published) :
    Epochs (if barrier.passes epoch then .ready else .asleepPublish epoch) barrier published := by
  split
  · next passes =>
    refine ⟨epochs.count, fun _ _ there => by simp [WorkerPlace.epoch?] at there, fun live _ => ?_⟩
    have last := epochs.parked live epoch rfl
    have bound := (epochs.count live).2
    simp only [PublicationBarrier.passes, live, Bool.false_or, decide_eq_true_eq] at passes
    omega
  · exact epochs.move rfl

/-- A publication parks the worker at its own epoch. -/
theorem complete (epochs : Epochs worker barrier published) (outside : worker.epoch? = none)
    (live : barrier.cancelled = false) :
    Epochs (.asleepPublish (barrier.completed + 1))
      { barrier with completed := barrier.completed + 1 } (published + 1) := by
  have count := (epochs.count live).1
  have passed := epochs.passed live outside
  refine ⟨fun _ => ⟨?_, ?_⟩, fun _ epoch there => ?_, fun _ h => by simp [WorkerPlace.epoch?] at h⟩
  · simp only [count]
  · simp only
    omega
  · exact (Option.some.inj there).symm

/-- A step releases the publications so far. -/
theorem release (epochs : Epochs worker barrier published) :
    Epochs worker { barrier with released := barrier.completed } published :=
  ⟨fun live => ⟨(epochs.count live).1, Nat.le_refl _⟩, epochs.parked, fun _ _ => rfl⟩

end Epochs

/-! ### The source, the controller, and the sleepers -/

/-- While the barrier is not cancelled the source runs, so no receive returns without a grant. -/
structure SourceOpen (worker : WorkerPlace) (gate : GatedReplaySource) (cancelled : Bool)
    (state : ControllerState) : Prop where
  runs : cancelled = false →
    gate.cancelled = false ∧ (worker = .absent ∨ gate.running = true) ∧ worker ≠ .returned
  stopped : gate.cancelled = true → gate.running = false
  absent : state = .ready → worker = .absent
  present : state = .starting ∨ state = .running → worker ≠ .absent

/-- A worker that is there changes its place. -/
theorem SourceOpen.move
    {worker next : WorkerPlace} {gate after : GatedReplaySource} {cancelled : Bool}
    {state : ControllerState} (source : SourceOpen worker gate cancelled state)
    (there : worker ≠ .absent) (stays : next ≠ .absent)
    (closed : next = .returned → cancelled = true)
    (same : after.running = gate.running ∧ after.cancelled = gate.cancelled) :
    SourceOpen next after cancelled state where
  runs := by
    intro live
    obtain ⟨open_, runs, -⟩ := source.runs live
    refine ⟨same.2.trans open_, .inr (same.1.trans (runs.resolve_left there)), fun returned => ?_⟩
    rw [closed returned] at live
    exact absurd live (by decide)
  stopped := by rw [same.1, same.2]; exact source.stopped
  absent := fun ready => absurd (source.absent ready) there
  present := fun _ => stays

/-- What the place of the controller says about the grants. -/
structure Control (controller : ControllerPlace) (state : ControllerState) (grants : List Grant)
    (published : ℕ) (last : ReceiveStatus) : Prop where
  fresh : state = .ready ∨ state = .starting → grants = []
  busy : controller ≠ .idle → state = .running
  /-- Between two steps every grant has its publication. -/
  idle : controller = .idle → state = .running → grants.length = published
  prepared : ∀ grant epoch, controller = .prepared grant epoch →
    grants.length = published ∧ epoch = (published + 1) % 2 ^ 64
  /-- A step waits for the publication of its own grant. -/
  waiting : ∀ grant epoch asleep, controller = .waiting grant epoch asleep →
    grants.getLast? = some grant ∧ epoch = grants.length
  seen : ∀ grant, controller = .draining grant ∨ controller = .reading grant ∨
    controller = .readingEnd grant → grants.getLast? = some grant ∧ grants.length = published
  readingEnd : ∀ grant, controller = .readingEnd grant → grant = .receive ∧ last = .timeout

/-- Once every grant has its publication the worker is held, until the next step releases it. -/
def Held (worker : WorkerPlace) (barrier : PublicationBarrier) (controller : ControllerPlace)
    (grants : List Grant) (published : ℕ) : Prop :=
  barrier.cancelled = false → grants.length = published → 0 < published →
    (∀ grant epoch, controller ≠ .prepared grant epoch) →
    worker.epoch? = some barrier.completed ∧ barrier.released < barrier.completed

/-- **What holds in every reachable state**, until the epochs run out. -/
structure Inv (s : HostReplay) : Prop where
  ledger : Ledger s.worker s.gate s.grants s.results s.published
  notes : Notes s.worker s.gate.lastReceive s.pending s.results
  epochs : Epochs s.worker s.barrier s.published
  source : SourceOpen s.worker s.gate s.barrier.cancelled s.state
  control : Control s.controller s.state s.grants s.published s.gate.lastReceive
  held : Held s.worker s.barrier s.controller s.grants s.published

theorem inv_initial : Inv (initial frames) where
  ledger := by constructor <;> simp [initial, WorkerPlace.unpublished]
  notes := Notes.start rfl fun _ => by simp [initial]
  epochs := by constructor <;> simp [initial, WorkerPlace.epoch?]
  source := by constructor <;> simp [initial]
  control := by constructor <;> simp [initial]
  held := fun _ _ some => absurd some (Nat.lt_irrefl 0)

variable {s : HostReplay}

/-! ### The moves of the worker -/

/-- A place of a started worker outside of a granted receive. -/
def WorkerPlace.quiet : WorkerPlace → Bool
  | .absent | .granted _ | .noting _ | .processing => false
  | _ => true

theorem WorkerPlace.of_quiet {place : WorkerPlace} (quiet : place.quiet = true) :
    place ≠ .absent ∧ place.unpublished = 0 ∧ (∀ grant, place ≠ .granted grant) ∧
      ∀ status, place ≠ .noting status := by
  cases place <;> simp_all [WorkerPlace.quiet, WorkerPlace.unpublished]

theorem WorkerPlace.notified_of_awake {place : WorkerPlace}
    (awake : ∀ epoch, place ≠ .asleepPublish epoch) : place.notified = place := by
  cases place with
  | asleepPublish epoch => exact absurd rfl (awake epoch)
  | _ => rfl

theorem ControllerPlace.notified_of_idle {place : ControllerPlace}
    (idle : ∀ grant epoch asleep, place ≠ .waiting grant epoch asleep) : place.notified = place := by
  cases place with
  | waiting grant epoch asleep => exact absurd rfl (idle grant epoch asleep)
  | _ => rfl

section

variable (inv : Inv s)
include inv

/-- The worker changes its place and nothing else, outside of a granted receive. -/
theorem Inv.place {next : WorkerPlace} (before : s.worker.quiet = true) (after : next.quiet = true)
    (epochs : Epochs next s.barrier s.published)
    (held : s.barrier.cancelled = false → s.worker.epoch? = some s.barrier.completed →
      s.barrier.released < s.barrier.completed → next.epoch? = s.worker.epoch?)
    (closed : next = .returned → s.barrier.cancelled = true) : Inv { s with worker := next } := by
  obtain ⟨present, published, -, unnoted⟩ := WorkerPlace.of_quiet before
  obtain ⟨stays, publishes, untaken, notes⟩ := WorkerPlace.of_quiet after
  refine ⟨inv.ledger.move (publishes.trans published.symm) untaken, inv.notes.move unnoted notes,
    epochs, inv.source.move present stays closed ⟨rfl, rfl⟩, inv.control,
    fun live all some free => ?_⟩
  obtain ⟨parked, unreleased⟩ := inv.held live all some free
  exact ⟨(held live parked unreleased).trans parked, unreleased⟩

/-- A move of the worker that leaves its epoch alone. -/
theorem Inv.turn {here next : WorkerPlace} (place : s.worker = here)
    (quiet : here.quiet = true ∧ next.quiet = true) (same : next.epoch? = here.epoch?)
    (closed : next = .returned → s.barrier.cancelled = true) : Inv { s with worker := next } := by
  subst place
  exact inv.place quiet.1 quiet.2 (inv.epochs.move same) (fun _ _ _ => same) closed

/-- A worker that sleeps wakes up. -/
theorem Inv.wakeWorker : Inv (s.step .wakeWorker).1 := by
  unfold step
  dsimp only
  split
  · next asleep => exact inv.turn asleep ⟨rfl, rfl⟩ rfl nofun
  · next asleep => exact inv.turn asleep ⟨rfl, rfl⟩ rfl nofun
  · exact inv

/-- The notification of the gate wakes the worker up. -/
theorem Inv.notifyGate : Inv s.notifyGate := by
  unfold HostReplay.notifyGate
  split
  · next asleep =>
    have woken := inv.wakeWorker
    unfold step at woken
    simpa only [asleep] using woken
  · exact inv

/-- The controller that waits looks at the barrier again. -/
theorem Inv.rewait {grant : Grant} {asleep : Bool} (again : Bool)
    (waits : s.controller = .waiting grant epoch asleep) :
    Inv { s with controller := .waiting grant epoch again } where
  ledger := inv.ledger
  notes := inv.notes
  epochs := inv.epochs
  source := inv.source
  control := by
    obtain ⟨fresh, busy, -, -, waiting, -, -⟩ := inv.control
    refine ⟨fresh, fun _ => busy (by simp [waits]), by simp, by simp, ?_, by simp, by simp⟩
    rintro g e a ⟨⟩
    exact waiting grant epoch asleep waits
  held := fun live all some _ => inv.held live all some (by simp [waits])

/-- The notification of the barrier wakes the controller up. -/
theorem Inv.notifyController : Inv { s with controller := s.controller.notified } := by
  by_cases waits : ∃ grant epoch asleep, s.controller = .waiting grant epoch asleep
  · obtain ⟨grant, epoch, asleep, waits⟩ := waits
    rw [waits]
    exact inv.rewait false waits
  · rw [ControllerPlace.notified_of_idle fun g e a there => waits ⟨g, e, a, there⟩]
    exact inv

/-- The notification of the barrier wakes up whoever sleeps there. -/
theorem Inv.notifyBarrier : Inv s.notifyBarrier := by
  have woken : Inv { s with worker := s.worker.notified } := by
    by_cases asleep : ∃ epoch, s.worker = .asleepPublish epoch
    · obtain ⟨epoch, place⟩ := asleep
      rw [place]
      exact inv.turn place ⟨rfl, rfl⟩ rfl nofun
    · rw [WorkerPlace.notified_of_awake fun epoch place => asleep ⟨epoch, place⟩]
      exact inv
  exact woken.notifyController

/-- The worker completes a publication, and parks at its epoch unless the barrier is cancelled. -/
theorem Inv.publish (few : s.grants.length < 2 ^ 64) (place : s.worker = .processing) :
    Inv { s with published := s.published + 1 }.publish := by
  obtain ⟨ledger, notes, epochs, source, control, held⟩ := inv
  rw [place] at ledger notes epochs source
  have served : s.results.length = s.published + 1 := ledger.served
  have bounds := ledger.outstanding
  -- The publication is that of the last grant, so the controller is not between two steps.
  have control' : Control s.controller s.state s.grants (s.published + 1) s.gate.lastReceive := by
    refine ⟨control.fresh, control.busy, fun idle runs => ?_, fun g e there => ?_, control.waiting,
      fun g there => ?_, control.readingEnd⟩
    · have := control.idle idle runs
      omega
    · have := (control.prepared g e there).1
      omega
    · have := (control.seen g there).2
      omega
  unfold HostReplay.publish PublicationBarrier.complete
  by_cases live : s.barrier.cancelled = false
  · -- The publication counts, and the worker parks before anyone else can take the mutex.
    have room : (s.barrier.completed + 1) % 2 ^ 64 = s.barrier.completed + 1 :=
      Nat.mod_eq_of_lt (by have := (epochs.count live).1; omega)
    have parks : PublicationBarrier.passes ⟨s.barrier.completed + 1, s.barrier.released, false⟩
        (s.barrier.completed + 1) = false := by
      simp [PublicationBarrier.passes, epochs.passed live rfl]
    have parked : Inv { s with
        published := s.published + 1
        barrier := { s.barrier with completed := s.barrier.completed + 1 }
        worker := .asleepPublish (s.barrier.completed + 1) } := by
      refine ⟨ledger.publish rfl (by simp), notes.move (by simp) (by simp),
        epochs.complete rfl live, source.move (by simp) (by simp) (by simp) ⟨rfl, rfl⟩, control',
        fun _ _ _ _ => ⟨rfl, ?_⟩⟩
      exact Nat.lt_succ_of_le (epochs.count live).2
    have told := parked.notifyController
    simp only [live, Bool.false_eq_true, if_false, HostReplay.notifyBarrier, room, parks] at told ⊢
    exact told
  · have cancelled : s.barrier.cancelled = true := by simpa using live
    simp only [cancelled, if_true]
    exact ⟨ledger.publish rfl (by simp), notes.move (by simp) (by simp),
      Epochs.of_cancelled cancelled, source.move (by simp) (by simp) (by simp) ⟨rfl, rfl⟩, control',
      fun live' => absurd live' live⟩

/-- The worker looks at the gate. -/
theorem Inv.receiving (place : s.worker = .receiving) (choice : WorkerChoice) :
    Inv (s.workerStep choice) := by
  unfold HostReplay.workerStep
  simp only [place]
  split
  · exact inv.turn place ⟨rfl, rfl⟩ rfl nofun
  next wakes =>
  split
  · next stopped =>
    refine inv.turn place ⟨rfl, rfl⟩ rfl fun _ => ?_
    by_contra live
    have runs := (inv.source.runs (by simpa using live)).2.1.resolve_left (by simp [place])
    simp [runs] at stopped
  next runs =>
  split
  · next cancelled =>
    have stopped := inv.source.stopped cancelled
    simp [stopped] at runs
  · next open_ =>
    have pending : s.gate.grantPending = true := by
      simpa [GatedReplaySource.wakes, open_, runs] using wakes
    obtain ⟨ledger, notes, epochs, source, control, held⟩ := inv
    rw [place] at ledger notes epochs source
    refine ⟨ledger.take pending, notes.move (by simp) (by simp), epochs.move rfl,
      source.move (by simp) (by simp) (by simp) ⟨rfl, rfl⟩, control, fun live all => ?_⟩
    have := (ledger.settled all).2.2.1
    rw [pending] at this
    exact absurd this (by decide)

/-- The worker receives for its grant. -/
theorem Inv.granted {grant : Grant} (place : s.worker = .granted grant) :
    Inv { s with
      pending := (s.receiveFor grant).2
      results := s.results ++ [⟨grant, (s.receiveFor grant).1, (s.receiveFor grant).2.isEmpty⟩]
      worker := .noting (s.receiveFor grant).1 } := by
  obtain ⟨ledger, -, epochs, source, control, held⟩ := inv
  rw [place] at ledger epochs source
  refine ⟨ledger.serve _ _, Notes.serve grant _ _, epochs.move rfl,
    source.move (by simp) (by simp) (by simp) ⟨rfl, rfl⟩, control,
    fun _ all => absurd rfl ((ledger.settled all).2.2.2 grant)⟩

/-- The worker notes the result at the gate. -/
theorem Inv.noting {status : ReceiveStatus} (place : s.worker = .noting status) :
    Inv { s with gate := { s.gate with lastReceive := status }, worker := .processing } := by
  obtain ⟨ledger, notes, epochs, source, control, held⟩ := inv
  rw [place] at ledger notes epochs source
  have served : s.results.length = s.published + 1 := ledger.served
  have bounds := ledger.outstanding
  have moved : Ledger .processing s.gate s.grants s.results s.published := ledger.move rfl (by simp)
  refine ⟨moved.regate fun pending => ⟨pending, rfl⟩, notes.note, epochs.move rfl,
    source.move (by simp) (by simp) (by simp) ⟨rfl, rfl⟩, ?_,
    fun _ (all : s.grants.length = s.published) => by omega⟩
  refine ⟨control.fresh, control.busy, control.idle, control.prepared, control.waiting, control.seen,
    fun g there => ?_⟩
  have := (control.seen g (.inr (.inr there))).2
  omega

/-- **The worker keeps the invariant.** -/
theorem Inv.workerStep (few : s.grants.length < 2 ^ 64) (choice : WorkerChoice) :
    Inv (s.workerStep choice) := by
  unfold HostReplay.workerStep
  rcases place : s.worker with _ | _ | _ | _ | grant | status | _ | _ | _ | epoch | _
  case absent => exact inv
  case exited => exact inv
  case asleepReceive => exact inv
  case asleepPublish => exact inv
  case ready =>
    have moves : ∀ next : WorkerPlace, next = .exited ∨ next = .receiving →
        Inv { s with worker := next } := by
      rintro next (rfl | rfl) <;> exact inv.turn place ⟨rfl, rfl⟩ rfl nofun
    dsimp only
    split
    · exact moves _ (.inl rfl)
    · exact moves _ (.inr rfl)
  case receiving =>
    have kept := inv.receiving place choice
    unfold HostReplay.workerStep at kept
    simpa only [place] using kept
  case granted => exact inv.granted place
  case noting => exact inv.noting place
  case processing => exact inv.publish few place
  case returned =>
    -- A receive returns without a grant only when the barrier is cancelled.
    have cancelled : s.barrier.cancelled = true := by
      by_contra live
      exact (inv.source.runs (by simpa using live)).2.2 place
    have moves : ∀ next : WorkerPlace, next = .ready ∨ next = .exited →
        Inv { s with worker := next } := by
      rintro next (rfl | rfl) <;> exact inv.turn place ⟨rfl, rfl⟩ rfl nofun
    rcases choice with _ | _ | _
    · exact moves _ (.inl rfl)
    · simp only [HostReplay.publish, PublicationBarrier.complete, cancelled, if_true]
      exact moves _ (.inl rfl)
    · exact moves _ (.inr rfl)
  case wokenPublish =>
    have looked : Epochs (if s.barrier.passes epoch then .ready else .asleepPublish epoch) s.barrier
        s.published := Epochs.look (place ▸ inv.epochs)
    dsimp only
    split
    · next passes =>
      rw [if_pos passes] at looked
      refine inv.place (by rw [place]; rfl) rfl looked (fun live parked unreleased => ?_) nofun
      -- A worker that is held does not pass.
      rw [place] at parked
      obtain rfl := Option.some.inj parked
      simp only [PublicationBarrier.passes, live, Bool.false_or, decide_eq_true_eq] at passes
      omega
    · exact inv.turn place ⟨rfl, rfl⟩ rfl nofun

/-! ### The moves of the controller -/

/-- A step ends, well or not. -/
theorem Inv.endStep {next : ControllerState}
    (state : next = .failed ∨ next = .running ∧ s.grants.length = s.published)
    (unprepared : s.barrier.cancelled = true ∨ ∀ grant epoch, s.controller ≠ .prepared grant epoch)
    (busy : s.state = .running) : Inv { s with state := next, controller := .idle } := by
  obtain ⟨ledger, notes, epochs, source, control, held⟩ := inv
  refine ⟨ledger, notes, epochs,
    ⟨source.runs, source.stopped, fun ready => ?_, fun _ => source.present (.inr busy)⟩,
    ⟨fun early => ?_, by simp, fun _ runs => ?_, by simp, by simp, by simp, by simp⟩,
    fun live all some _ => ?_⟩
  · rcases state with rfl | ⟨rfl, -⟩ <;> simp at ready
  · rcases state with rfl | ⟨rfl, -⟩ <;> simp at early
  · rcases state with rfl | ⟨-, all⟩
    · simp at runs
    · exact all
  · refine held live all some (unprepared.resolve_left fun cancelled => ?_)
    rw [cancelled] at live
    exact absurd live (by decide)

/-- The wait of a step ends. When it succeeds, the publication of the step's own grant was seen. -/
theorem Inv.endWait {grant : Grant} {asleep : Bool}
    (waits : s.controller = .waiting grant epoch asleep) : Inv (s.endWait grant epoch).1 := by
  have busy := inv.control.busy (by simp [waits])
  unfold HostReplay.endWait
  split
  · next seen =>
    obtain ⟨last, own⟩ := inv.control.waiting grant epoch asleep waits
    simp only [waitFor, Bool.and_eq_true, Bool.not_eq_true',
      decide_eq_true_eq] at seen
    obtain ⟨⟨-, live⟩, reached⟩ := seen
    -- As many publications as grants: the epoch is the number of the step's own grant.
    have all : s.grants.length = s.published := by
      have count := (inv.epochs.count live).1
      have served := inv.ledger.served
      have bounds := inv.ledger.outstanding
      omega
    refine ⟨inv.ledger, inv.notes, inv.epochs, inv.source, ?_,
      fun live all some _ => inv.held live all some (by simp [waits])⟩
    refine ⟨inv.control.fresh, fun _ => busy, by simp, by simp, by simp, fun g there => ?_, by simp⟩
    simp only [ControllerPlace.draining.injEq, reduceCtorEq, or_false] at there
    exact there ▸ ⟨last, all⟩
  · exact inv.endStep (.inl rfl) (.inr (by simp [waits])) busy

/-- The next step releases the worker. -/
theorem Inv.prepare (idle : s.controller = .idle) (runs : s.state = .running)
    (live : s.barrier.cancelled = false) (grant : Grant) :
    Inv { s with
      barrier := { s.barrier with released := s.barrier.completed }
      controller := .prepared grant ((s.barrier.completed + 1) % 2 ^ 64) } := by
  have all := inv.control.idle idle runs
  refine ⟨inv.ledger, inv.notes, inv.epochs.release, inv.source,
    ⟨inv.control.fresh, fun _ => runs, by simp, ?_, by simp, by simp, by simp⟩,
    fun _ _ _ free => absurd rfl (free _ _)⟩
  rintro g e ⟨⟩
  exact ⟨all, by rw [(inv.epochs.count live).1]⟩

/-- The step makes its grant. -/
theorem Inv.grant {grant : Grant} (prepared : s.controller = .prepared grant epoch)
    (few : s.grants.length + 1 < 2 ^ 64) :
    Inv { s with
      gate := { s.gate with grant, grantPending := true }
      controller := .waiting grant epoch false
      grants := s.grants ++ [grant] } := by
  obtain ⟨all, own⟩ := inv.control.prepared grant epoch prepared
  have busy := inv.control.busy (by simp [prepared])
  refine ⟨inv.ledger.offer all grant, inv.notes, inv.epochs,
    ⟨inv.source.runs, inv.source.stopped, inv.source.absent, inv.source.present⟩, ?_, ?_⟩
  · refine ⟨fun early => ?_, fun _ => busy, by simp, by simp, ?_, by simp, by simp⟩
    · rw [busy] at early
      simp at early
    · rintro g e a ⟨⟩
      refine ⟨List.getLast?_concat, ?_⟩
      rw [all] at few
      rw [List.length_append, List.length_singleton, all, own, Nat.mod_eq_of_lt few]
  · intro _ (length : (s.grants ++ [grant]).length = s.published)
    rw [List.length_append, List.length_singleton] at length
    omega

/-- A step reads what the gate has noted. -/
theorem Inv.toReading {grant : Grant} {next : ControllerPlace}
    (seen : s.controller = .draining grant ∨ s.controller = .reading grant)
    (reads : next = .reading grant ∨
      next = .readingEnd grant ∧ grant = .receive ∧ s.gate.lastReceive = .timeout) :
    Inv { s with controller := next } := by
  have own := inv.control.seen grant (seen.imp_right .inl)
  have busy : s.state = .running := inv.control.busy (by rcases seen with h | h <;> simp [h])
  have unprepared : ∀ g e, s.controller ≠ .prepared g e := by rcases seen with h | h <;> simp [h]
  refine ⟨inv.ledger, inv.notes, inv.epochs, inv.source, ?_,
    fun live all some _ => inv.held live all some unprepared⟩
  rcases reads with rfl | ⟨rfl, receives⟩
  · refine ⟨inv.control.fresh, fun _ => busy, by simp, by simp, by simp, fun g there => ?_, by simp⟩
    obtain rfl : grant = g := by simpa using there
    exact own
  · refine ⟨inv.control.fresh, fun _ => busy, by simp, by simp, by simp, fun g there => ?_, ?_⟩
    · obtain rfl : grant = g := by simpa using there
      exact own
    · rintro g ⟨⟩
      exact receives

/-- A step that has seen its publication reports its input. -/
theorem Inv.report {grant : Grant} (input : ReplayInputResult)
    (seen : s.controller = .reading grant ∨ s.controller = .readingEnd grant) :
    Inv (s.report input).1 := by
  have own := inv.control.seen grant (.inr seen)
  have busy : s.state = .running := inv.control.busy (by rcases seen with h | h <;> simp [h])
  have ended := inv.endStep (.inr ⟨rfl, own.2⟩)
    (.inr (by rcases seen with h | h <;> simp [h])) busy
  rw [← busy] at ended
  exact ended

/-- The end of a step by the place of the controller. -/
theorem Inv.readLast : Inv (s.step .readLast).1 := by
  unfold step
  dsimp only
  split
  · next grant reads =>
    split
    · exact inv.report _ (.inl reads)
    · next noted =>
      split
      · next receives => exact inv.toReading (.inr reads) (.inr ⟨rfl, receives, noted⟩)
      · exact inv.report _ (.inl reads)
    all_goals
      exact inv.endStep (.inl rfl) (.inr (by simp [reads])) (inv.control.busy (by simp [reads]))
  · exact inv

/-! ### The moves of a cancellation -/

theorem Inv.cancel : Inv { s with barrier := s.barrier.cancel, cancelNotifies := true } where
  ledger := inv.ledger
  notes := inv.notes
  epochs := Epochs.of_cancelled rfl
  source := ⟨fun live => by simp [PublicationBarrier.cancel] at live, inv.source.stopped,
    inv.source.absent, inv.source.present⟩
  control := inv.control
  held := fun live => by simp [PublicationBarrier.cancel] at live

theorem Inv.stopGate (cancelled : s.barrier.cancelled = true) :
    Inv { s with gate := s.gate.stop, stopNotifies := true } where
  ledger := inv.ledger.regate fun pending => by simp [GatedReplaySource.stop] at pending
  notes := inv.notes
  epochs := inv.epochs
  source := ⟨fun live => by simp [cancelled] at live, fun _ => rfl, inv.source.absent,
    inv.source.present⟩
  control := inv.control
  held := inv.held

/-- The invariant does not speak about what the stopping threads still have to do. -/
theorem Inv.flags (cancelNotifies stopNotifies stopsSource sourceRuns : Bool) :
    Inv { s with cancelNotifies, stopNotifies, stopsSource, sourceRuns } :=
  ⟨inv.ledger, inv.notes, inv.epochs, inv.source, inv.control, inv.held⟩

/-! ### The start -/

/-- Before the first step nothing was granted. -/
theorem Inv.fresh (early : s.state = .ready ∨ s.state = .starting) :
    s.grants = [] ∧ s.results = [] ∧ s.published = 0 := by
  have none := inv.control.fresh early
  have served := inv.ledger.served
  have bounds := inv.ledger.outstanding
  rw [none, List.length_nil] at bounds
  exact ⟨none, List.eq_nil_of_length_eq_zero (by omega), by omega⟩

theorem Inv.unstarted (early : s.state = .ready ∨ s.state = .starting) : s.controller = .idle := by
  by_contra busy
  have runs := inv.control.busy busy
  rcases early with early | early <;> simp [runs] at early

theorem Inv.start (ready : s.state = .ready) :
    Inv { s with
      state := .starting, sourceRuns := true, gate := s.gate.start, worker := .ready } := by
  obtain ⟨grants, results, published⟩ := inv.fresh (.inl ready)
  have idle := inv.unstarted (.inl ready)
  have absent := inv.source.absent ready
  constructor
  case ledger => constructor <;> simp [grants, results, published, WorkerPlace.unpublished,
    GatedReplaySource.start]
  case notes => exact Notes.start results (by simp)
  case epochs => exact inv.epochs.move (by rw [absent]; rfl)
  case source => constructor <;> simp [GatedReplaySource.start]
  case control => constructor <;> simp [idle, grants]
  case held =>
    intro _ _ (some : 0 < s.published)
    omega

/-- The state of the controller changes while it is idle, before its first step or for good. -/
theorem Inv.restate {next : ControllerState} (idle : s.controller = .idle)
    (running : next = .running → s.grants.length = s.published)
    (late : next ≠ .ready ∧ next ≠ .starting)
    (started : next = .starting ∨ next = .running → s.worker ≠ .absent) :
    Inv { s with state := next } where
  ledger := inv.ledger
  notes := inv.notes
  epochs := inv.epochs
  source := ⟨inv.source.runs, inv.source.stopped, fun ready => absurd ready late.1, started⟩
  control := by
    refine ⟨fun early => ?_, fun busy => absurd idle busy, fun _ runs => running runs, ?_, ?_, ?_, ?_⟩
    · rcases early with early | early
      · exact absurd early late.1
      · exact absurd early late.2
    all_goals simp [idle]
  held := inv.held

/-! ### Every move -/

/-- A step begins: the worker is released, and told when it was parked. -/
theorem Inv.processInput (grant : Grant) : Inv (s.step (.processInput grant)).1 := by
  unfold step prepareStep
  dsimp only
  split
  · exact inv
  next idle =>
  rw [ne_eq, not_not] at idle
  split
  · exact inv
  next runs =>
  rw [ne_eq, not_not] at runs
  by_cases live : s.barrier.cancelled = false
  · have prepared := inv.prepare idle runs live grant
    simp only [live, Bool.false_eq_true, if_false]
    by_cases behind : s.barrier.released < s.barrier.completed
    · simp only [behind, if_true]
      have told := prepared.notifyBarrier
      simp only [HostReplay.notifyBarrier, ControllerPlace.notified, live] at told
      exact told
    · -- Nothing is parked, so nothing changes at the barrier.
      have released : s.barrier.released = s.barrier.completed := by
        have := (inv.epochs.count live).2
        omega
      have same : { s.barrier with released := s.barrier.completed } = s.barrier := by
        rw [← released]
      rw [same] at prepared
      simp only [behind, if_false]
      exact prepared
  · rw [Bool.not_eq_false] at live
    simp only [live, if_true]
    exact inv.endStep (.inl rfl) (.inr (by simp [idle])) runs

/-- The step makes its grant, unless it is refused. -/
theorem Inv.offer (few : (s.step .offer).1.grants.length < 2 ^ 64) : Inv (s.step .offer).1 := by
  unfold step GatedReplaySource.offer at few ⊢
  cases prepared : s.controller with
  | prepared grant epoch =>
    simp only [prepared] at few ⊢
    by_cases refused : (!s.gate.running || s.gate.cancelled || s.gate.grantPending) = true
    · -- A grant is refused only after a cancellation.
      have busy : s.state = .running := inv.control.busy (by simp [prepared])
      have cancelled : s.barrier.cancelled = true := by
        by_contra live
        rw [Bool.not_eq_true] at live
        obtain ⟨open_, runs, -⟩ := inv.source.runs live
        have running := runs.resolve_left (inv.source.present (.inr busy))
        have free := (inv.ledger.settled (inv.control.prepared grant epoch prepared).1).2.2.1
        simp [open_, running, free] at refused
      simp only [refused, if_true]
      exact inv.endStep (.inl rfl) (.inl cancelled) busy
    · simp only [refused] at few ⊢
      have length : (s.grants ++ [grant]).length = s.grants.length + 1 := List.length_append
      exact (inv.grant prepared (length ▸ few)).notifyGate
  | idle | waiting | draining | reading | readingEnd => exact inv

end

/-- No move takes a grant back. -/
theorem grants_step (s : HostReplay) (move : Move) :
    s.grants.length ≤ (s.step move).1.grants.length := by
  cases move with
  | offer =>
    unfold step
    dsimp only
    split
    · split
      · exact Nat.le_refl _
      · exact List.length_append ▸ Nat.le_add_right _ _
    · exact Nat.le_refl _
  | worker choice =>
    refine Nat.le_of_eq (congrArg List.length ?_)
    change s.grants = (s.workerStep choice).grants
    unfold HostReplay.workerStep HostReplay.publish HostReplay.notifyBarrier
    repeat' split
    all_goals rfl
  | _ =>
    refine Nat.le_of_eq (congrArg List.length ?_)
    unfold step
    dsimp only [HostReplay.endWait, HostReplay.failStep, HostReplay.report,
      HostReplay.notifyBarrier, HostReplay.notifyGate]
    repeat' split
    all_goals rfl

/-- **The step lemma**: one move keeps the invariant. -/
theorem inv_step (inv : Inv s) (move : Move) (few : (s.step move).1.grants.length < 2 ^ 64) :
    Inv (s.step move).1 := by
  have before := Nat.lt_of_le_of_lt (grants_step s move) few
  cases move with
  | readLast => exact inv.readLast
  | wakeWorker => exact inv.wakeWorker
  | worker choice => exact inv.workerStep before choice
  | processInput grant => exact inv.processInput grant
  | offer => exact inv.offer few
  | cancel => exact inv.cancel
  | start ok =>
    unfold step
    dsimp only
    split
    · exact inv
    next ready =>
    rw [ne_eq, not_not] at ready
    split
    · exact inv.start ready
    · exact inv.restate (inv.unstarted (.inl ready)) (by simp) (by simp) (by simp)
  | launch ok =>
    unfold step
    dsimp only
    split
    · exact inv
    next starting =>
    rw [ne_eq, not_not] at starting
    obtain ⟨grants, -, published⟩ := inv.fresh (.inr starting)
    refine inv.restate (inv.unstarted (.inr starting)) (fun _ => ?_) (by split <;> simp)
      fun _ => inv.source.present (.inl starting)
    rw [grants, published]
    rfl
  | checkWait =>
    unfold step
    dsimp only
    split
    · next grant epoch waits =>
      split
      · exact inv.endWait waits
      · exact inv.rewait true waits
    · exact inv
  | waitTimeout =>
    unfold step
    dsimp only
    split
    · next waits => exact inv.endWait waits
    · exact inv
  | wakeController =>
    unfold step
    dsimp only
    split
    · next waits => exact inv.rewait false waits
    · exact inv
  | drain ok =>
    unfold step
    dsimp only
    split
    · next grant drains =>
      split
      · exact inv.toReading (.inl drains) (.inl rfl)
      · exact inv.endStep (.inl rfl) (.inr (by simp [drains])) (inv.control.busy (by simp [drains]))
    · exact inv
  | readEnd =>
    unfold step
    dsimp only
    split
    · next grant reads => exact inv.report _ (.inr reads)
    · exact inv
  | operationFault =>
    unfold step
    dsimp only
    split
    · next idle => exact inv.restate idle.1 (by simp) (by simp) (by simp)
    · exact inv
  | advanceClock target =>
    unfold step
    dsimp only
    split
    · exact ⟨inv.ledger, inv.notes, inv.epochs, inv.source, inv.control, inv.held⟩
    · exact inv
  | cancelNotify =>
    unfold step
    dsimp only
    split
    · exact (inv.flags false s.stopNotifies s.stopsSource s.sourceRuns).notifyBarrier
    · exact inv
  | stopGate =>
    unfold step
    dsimp only
    split
    · next cancelled => exact inv.stopGate cancelled
    · exact inv
  | stopNotify =>
    unfold step
    dsimp only
    split
    · exact (inv.flags s.cancelNotifies false true s.sourceRuns).notifyGate
    · exact inv
  | stopSource =>
    unfold step
    dsimp only
    split
    · exact inv.flags s.cancelNotifies s.stopNotifies false false
    · exact inv
  | stopped quiescent =>
    unfold step
    dsimp only
    split
    · next idle =>
      exact inv.restate idle.1 (by split <;> simp) (by split <;> simp) (by split <;> simp)
    · exact inv

/-- What holds in every reachable state, as long as the epochs have not run out. -/
theorem inv_run (moves : List Move) :
    (after step (initial frames) moves).grants.length < 2 ^ 64 →
      Inv (after step (initial frames) moves) := by
  induction moves using List.reverseRecOn with
  | nil => exact fun _ => inv_initial frames
  | append_singleton moves move ih =>
    rw [after_snoc]
    exact fun few => inv_step (ih (Nat.lt_of_le_of_lt (grants_step _ move) few)) move few

/-! ### Sleep -/

def WorkerPlace.asleep : WorkerPlace → Bool
  | .asleepReceive | .asleepPublish _ => true
  | _ => false

/-- Whoever sleeps has nothing to wake up for, or is about to be notified; and nobody stops the
source before the barrier is cancelled. -/
structure Sleepers (s : HostReplay) : Prop where
  atGate : s.worker = .asleepReceive →
    s.gate.running = true ∧ s.gate.cancelled = false ∨ s.stopNotifies = true
  atBarrier : ∀ epoch, s.worker = .asleepPublish epoch →
    s.barrier.cancelled = false ∨ s.cancelNotifies = true
  unstopped : s.barrier.cancelled = false → s.stopNotifies = false ∧ s.stopsSource = false

/-- What decides whether a sleeper is woken up. -/
def HostReplay.wakeups (s : HostReplay) : Bool × Bool × Bool × Bool × Bool × Bool :=
  (s.gate.running, s.gate.cancelled, s.barrier.cancelled, s.cancelNotifies, s.stopNotifies,
    s.stopsSource)

/-- A move that puts nobody to sleep. -/
theorem Sleepers.move (sleepers : Sleepers s) {t : HostReplay}
    (worker : t.worker.asleep = true → t.worker = s.worker) (kept : t.wakeups = s.wakeups) :
    Sleepers t := by
  simp only [HostReplay.wakeups, Prod.mk.injEq] at kept
  obtain ⟨runs, open_, cancelled, cancels, stops, source⟩ := kept
  refine ⟨fun asleep => ?_, fun epoch asleep => ?_, fun live => ?_⟩
  · rw [runs, open_, stops]
    exact sleepers.atGate ((worker (by rw [asleep]; rfl)).symm.trans asleep)
  · rw [cancelled, cancels]
    exact sleepers.atBarrier epoch ((worker (by rw [asleep]; rfl)).symm.trans asleep)
  · rw [stops, source]
    exact sleepers.unstopped (cancelled.symm.trans live)

/-- A move after which the worker is awake. -/
theorem Sleepers.awake (sleepers : Sleepers s) {t : HostReplay} (awake : t.worker.asleep = false)
    (kept : t.wakeups = s.wakeups) : Sleepers t :=
  sleepers.move (fun asleep => absurd (awake.symm.trans asleep) Bool.false_ne_true) kept

theorem WorkerPlace.notified_of_asleep {place : WorkerPlace}
    (asleep : place.notified.asleep = true) : place.notified = place := by
  cases place with
  | asleepPublish epoch => simp [WorkerPlace.notified, WorkerPlace.asleep] at asleep
  | _ => rfl

theorem Sleepers.notifyGate (sleepers : Sleepers s) : Sleepers s.notifyGate := by
  refine sleepers.move (fun asleep => ?_) rfl
  unfold HostReplay.notifyGate at asleep ⊢
  split at asleep
  · cases asleep
  · next awake => rw [if_neg awake]

/-- A publication puts the worker to sleep only at a barrier that is not cancelled. -/
theorem Sleepers.publish (sleepers : Sleepers s) : Sleepers s.publish := by
  unfold HostReplay.publish PublicationBarrier.complete
  by_cases live : s.barrier.cancelled = false
  · simp only [live, Bool.false_eq_true, if_false]
    refine ⟨fun asleep => ?_, fun _ _ => .inl rfl, fun _ => sleepers.unstopped live⟩
    split at asleep <;> cases asleep
  · rw [Bool.not_eq_false] at live
    simp only [live, if_true]
    exact sleepers.awake rfl rfl

theorem Sleepers.workerStep (sleepers : Sleepers s) (choice : WorkerChoice) :
    Sleepers (s.workerStep choice) := by
  have awake : ∀ place : WorkerPlace, place.asleep = false → Sleepers { s with worker := place } :=
    fun _ awake => sleepers.awake awake rfl
  unfold HostReplay.workerStep
  rcases place : s.worker with _ | _ | _ | _ | grant | status | _ | _ | _ | epoch | _
  case absent | exited | asleepReceive | asleepPublish => exact sleepers
  case ready => exact awake _ (by split <;> rfl)
  case receiving =>
    dsimp only
    split
    · next sleeps =>
      simp only [GatedReplaySource.wakes, Bool.not_eq_true', Bool.or_eq_false_iff,
        Bool.not_eq_false'] at sleeps
      exact ⟨fun _ => .inl ⟨sleeps.2, sleeps.1.2⟩, fun _ asleep => (by cases asleep),
        sleepers.unstopped⟩
    repeat' split
    all_goals
      exact sleepers.awake rfl rfl
  case granted | noting =>
    exact sleepers.awake rfl rfl
  case processing =>
    have counted : Sleepers { s with published := s.published + 1 } :=
      sleepers.move (fun _ => rfl) rfl
    exact counted.publish
  case returned =>
    cases choice with
    | proceed | leave => exact awake _ rfl
    | publish => exact sleepers.publish
  case wokenPublish =>
    dsimp only
    split
    · exact awake _ rfl
    · next stays =>
      have live : s.barrier.cancelled = false := by
        by_contra cancelled
        rw [Bool.not_eq_false] at cancelled
        exact stays (by simp [PublicationBarrier.passes, cancelled])
      exact ⟨fun asleep => (by cases asleep), fun _ _ => .inl live, sleepers.unstopped⟩

/-- **The step lemma** of the sleepers, whatever the epochs. -/
theorem sleepers_step (sleepers : Sleepers s) (move : Move) : Sleepers (s.step move).1 := by
  cases move with
  | worker choice => exact sleepers.workerStep choice
  | wakeWorker =>
    unfold step
    dsimp only
    split
    · exact sleepers.awake rfl rfl
    · exact sleepers.awake rfl rfl
    · exact sleepers
  | start ok =>
    unfold step
    dsimp only
    split
    · exact sleepers
    split
    · exact ⟨fun asleep => (by cases asleep), fun _ asleep => (by cases asleep), sleepers.unstopped⟩
    · exact sleepers.move (fun _ => rfl) rfl
  | cancel =>
    exact ⟨sleepers.atGate, fun _ _ => .inr rfl, fun live => by
      simp [HostReplay.step, PublicationBarrier.cancel] at live⟩
  | cancelNotify =>
    unfold step
    dsimp only
    split
    · -- Nobody sleeps at the barrier after the notification.
      refine ⟨fun asleep => sleepers.atGate ?_, fun epoch asleep => ?_, sleepers.unstopped⟩
      · have told : s.worker.notified = .asleepReceive := asleep
        exact (WorkerPlace.notified_of_asleep (by rw [told]; rfl)).symm.trans told
      · cases place : s.worker <;> simp [HostReplay.notifyBarrier, WorkerPlace.notified, place]
          at asleep
    · exact sleepers
  | stopGate =>
    unfold step
    dsimp only
    split
    · next cancelled =>
      exact ⟨fun _ => .inr rfl, sleepers.atBarrier, fun live => by simp [cancelled] at live⟩
    · exact sleepers
  | stopNotify =>
    unfold step
    dsimp only
    split
    · next notifies =>
      -- Nobody sleeps at the gate after the notification.
      have cancelled : ¬ s.barrier.cancelled = false := fun live => by
        simp [(sleepers.unstopped live).1] at notifies
      refine ⟨fun asleep => ?_, fun epoch asleep => sleepers.atBarrier epoch ?_,
        fun live => absurd live cancelled⟩
      · simp only [HostReplay.notifyGate] at asleep
        split at asleep
        · cases asleep
        · next awake => exact absurd asleep awake
      · simp only [HostReplay.notifyGate] at asleep
        split at asleep
        · cases asleep
        · exact asleep
    · exact sleepers
  | stopSource =>
    unfold step
    dsimp only
    split
    · exact ⟨sleepers.atGate, sleepers.atBarrier, fun live => ⟨(sleepers.unstopped live).1, rfl⟩⟩
    · exact sleepers
  | offer =>
    unfold step
    dsimp only
    split
    · split
      · exact sleepers.move (fun _ => rfl) rfl
      · next gate offered =>
        refine Sleepers.notifyGate (sleepers.move (fun _ => rfl) ?_)
        unfold GatedReplaySource.offer at offered
        split at offered
        · cases offered
        · cases offered
          rfl
    · exact sleepers
  | processInput grant =>
    unfold step
    dsimp only
    split
    · exact sleepers
    split
    · exact sleepers
    cases live : s.barrier.cancelled with
    | true =>
      simp only [prepareStep, live, if_true]
      exact sleepers.move (fun _ => rfl) rfl
    | false =>
      simp only [prepareStep, live, Bool.false_eq_true, if_false]
      split
      · refine sleepers.move WorkerPlace.notified_of_asleep ?_
        rw [HostReplay.wakeups, HostReplay.wakeups, live]
        rfl
      · exact sleepers.move (fun _ => rfl) rfl
  | _ =>
    unfold step
    dsimp only [HostReplay.endWait, HostReplay.failStep, HostReplay.report]
    repeat' split
    all_goals
      exact sleepers.move (fun _ => rfl) rfl

theorem sleepers_run (moves : List Move) :
    Sleepers (after step (initial frames) moves) := by
  induction moves using List.reverseRecOn with
  | nil => constructor <;> simp [initial]
  | append_singleton moves move ih =>
    rw [after_snoc]
    exact sleepers_step ih move

/-! ### A parked worker -/

/-- The two states have the same source, gate, barrier and publications, and the worker is parked
at the same epoch. -/
structure Undisturbed (s t : HostReplay) : Prop where
  source : t.sourceRuns = s.sourceRuns
  gate : t.gate = s.gate
  barrier : t.barrier = s.barrier
  pending : t.pending = s.pending
  grants : t.grants = s.grants
  results : t.results = s.results
  published : t.published = s.published
  worker : t.worker.epoch? = s.worker.epoch?

theorem Undisturbed.trans {t u : HostReplay} (first : Undisturbed s t) (second : Undisturbed t u) :
    Undisturbed s u :=
  ⟨second.source.trans first.source, second.gate.trans first.gate, second.barrier.trans first.barrier,
    second.pending.trans first.pending, second.grants.trans first.grants,
    second.results.trans first.results, second.published.trans first.published,
    second.worker.trans first.worker⟩

/-- Where the controller is from the moment its wait has succeeded until its next step. -/
def ControllerPlace.settled : ControllerPlace → Bool
  | .idle | .draining _ | .reading _ | .readingEnd _ => true
  | .prepared .. | .waiting .. => false

/-- The worker is parked behind a publication that is not released, and nothing is under way that
would release it. -/
structure Parked (s : HostReplay) : Prop where
  live : s.barrier.cancelled = false
  epoch : s.worker.epoch? = some s.barrier.completed
  unreleased : s.barrier.released < s.barrier.completed
  settled : s.controller.settled = true
  unstopped : s.stopNotifies = false ∧ s.stopsSource = false
  started : s.state ≠ .ready ∧ s.state ≠ .starting

theorem WorkerPlace.epoch?_eq_some {place : WorkerPlace} :
    place.epoch? = some epoch ↔ place = .asleepPublish epoch ∨ place = .wokenPublish epoch := by
  cases place <;> simp [WorkerPlace.epoch?]

theorem WorkerPlace.epoch?_notified
    (place : WorkerPlace) : place.notified.epoch? = place.epoch? := by
  cases place <;> rfl

theorem ControllerPlace.settled_notified (place : ControllerPlace) :
    place.notified.settled = place.settled := by
  cases place <;> rfl

/-- A parked worker only sleeps and wakes up. -/
theorem Parked.workerStep (parked : Parked s) (choice : WorkerChoice) :
    ∃ place : WorkerPlace, place.epoch? = s.worker.epoch? ∧
      s.workerStep choice = { s with worker := place } := by
  rcases WorkerPlace.epoch?_eq_some.mp parked.epoch with place | place
  · refine ⟨s.worker, rfl, ?_⟩
    simp only [HostReplay.workerStep, place]
    rw [← place]
  · refine ⟨.asleepPublish s.barrier.completed, by rw [place]; rfl, ?_⟩
    have stays : s.barrier.passes s.barrier.completed = false := by
      simp [PublicationBarrier.passes, parked.live, parked.unreleased]
    simp only [HostReplay.workerStep, place, stays, Bool.false_eq_true, if_false]

/-- The threads move, and the protected objects stay. -/
theorem Parked.of_places (parked : Parked s) {place : WorkerPlace} {controller : ControllerPlace}
    {state : ControllerState} (clock : ℕ) (cancelNotifies : Bool)
    (epoch : place.epoch? = s.worker.epoch?) (settled : controller.settled = true)
    (started : state ≠ .ready ∧ state ≠ .starting) :
    Parked { s with worker := place, controller, state, clock, cancelNotifies } ∧
      Undisturbed s { s with worker := place, controller, state, clock, cancelNotifies } :=
  ⟨⟨parked.live, epoch.trans parked.epoch, parked.unreleased, settled, parked.unstopped, started⟩,
    rfl, rfl, rfl, rfl, rfl, rfl, rfl, epoch⟩

/-- Between two steps of the controller, nothing but a cancellation disturbs a parked worker. -/
theorem Parked.step (parked : Parked s) {move : Move}
    (between : ∀ grant, move ≠ .processInput grant)
    (kept : move ≠ .cancel) :
    Parked (s.step move).1 ∧ Undisturbed s (s.step move).1 := by
  have stays : Parked s ∧ Undisturbed s s := ⟨parked, rfl, rfl, rfl, rfl, rfl, rfl, rfl, rfl⟩
  have settled := parked.settled
  have started := parked.started
  cases move with
  | processInput grant => exact absurd rfl (between grant)
  | cancel => exact absurd rfl kept
  | start ok => simpa only [HostReplay.step, started.1, ne_eq, not_false_eq_true, if_true] using stays
  | launch ok => simpa only [HostReplay.step, started.2, ne_eq, not_false_eq_true, if_true] using stays
  | stopGate => simpa only [HostReplay.step, parked.live, Bool.false_eq_true, if_false] using stays
  | stopNotify =>
    simpa only [HostReplay.step, parked.unstopped, Bool.false_eq_true, if_false] using stays
  | stopSource =>
    simpa only [HostReplay.step, parked.unstopped, Bool.false_eq_true, if_false] using stays
  | stopped quiescent =>
    simpa only [HostReplay.step, parked.live, Bool.false_eq_true, false_and, and_false, if_false]
      using stays
  | worker choice =>
    obtain ⟨place, epoch, moved⟩ := parked.workerStep choice
    simp only [HostReplay.step, moved]
    exact parked.of_places _ _ epoch settled started
  | wakeWorker =>
    rcases WorkerPlace.epoch?_eq_some.mp parked.epoch with place | place <;>
      simp only [HostReplay.step, place]
    · exact parked.of_places _ _ (by rw [place]; rfl) settled started
    · exact stays
  | cancelNotify =>
    unfold HostReplay.step
    dsimp only
    split
    · exact parked.of_places _ _ (WorkerPlace.epoch?_notified _)
        ((ControllerPlace.settled_notified _).trans settled) started
    · exact stays
  | operationFault =>
    unfold HostReplay.step
    dsimp only
    split
    · exact parked.of_places _ _ rfl settled (by simp)
    · exact stays
  | advanceClock target =>
    unfold HostReplay.step
    dsimp only
    split
    · exact parked.of_places _ _ rfl settled started
    · exact stays
  | drain ok =>
    unfold HostReplay.step
    dsimp only
    split
    · split
      · exact parked.of_places _ _ rfl rfl started
      · exact parked.of_places _ _ rfl rfl (by simp)
    · exact stays
  | readLast =>
    unfold HostReplay.step
    dsimp only
    split
    · split
      · exact parked.of_places _ _ rfl rfl started
      · split
        · exact parked.of_places _ _ rfl rfl started
        · exact parked.of_places _ _ rfl rfl started
      all_goals exact parked.of_places _ _ rfl rfl (by simp)
    · exact stays
  | readEnd =>
    unfold HostReplay.step
    dsimp only
    split
    · exact parked.of_places _ _ rfl rfl started
    · exact stays
  | offer | checkWait | waitTimeout | wakeController =>
    -- These are moves of a step that still waits.
    unfold HostReplay.step
    dsimp only
    split
    · next there => simp [there, ControllerPlace.settled] at settled
    · exact stays

/-- A parked worker stays parked until the next step or a cancellation. -/
theorem Parked.run (parked : Parked s) (moves : List Move)
    (between : ∀ move ∈ moves, move ≠ .cancel ∧ ∀ grant, move ≠ .processInput grant) :
    Parked (after HostReplay.step s moves) ∧
      Undisturbed s (after HostReplay.step s moves) := by
  induction moves using List.reverseRecOn with
  | nil => exact ⟨parked, rfl, rfl, rfl, rfl, rfl, rfl, rfl, rfl⟩
  | append_singleton moves move ih =>
    obtain ⟨still, undisturbed⟩ := ih fun m mem => between m (List.mem_append_left _ mem)
    obtain ⟨kept, steps⟩ := between move (List.mem_append_right _ (List.mem_singleton_self _))
    rw [after_snoc]
    obtain ⟨parked', moved⟩ := still.step steps kept
    exact ⟨parked', undisturbed.trans moved⟩

/-- A step that has seen its publication has parked the worker. -/
theorem Inv.parked (inv : Inv s) (sleepers : Sleepers s) {grant : Grant}
    (seen : s.controller = .draining grant) (live : s.barrier.cancelled = false) : Parked s := by
  obtain ⟨last, all⟩ := inv.control.seen grant (.inl seen)
  have some : 0 < s.published := by
    rw [← all]
    exact List.length_pos_of_mem (List.mem_of_getLast? last)
  have busy := inv.control.busy (by simp [seen])
  obtain ⟨epoch, unreleased⟩ := inv.held live all some (by simp [seen])
  exact ⟨live, epoch, unreleased, by rw [seen]; rfl, sleepers.unstopped live, by simp [busy]⟩

/-! ### The reports -/

/-- The input that a granted receive amounts to, unless it is a fault. -/
def Receipt.input (receipt : Receipt) : Option ReplayInputResult :=
  match receipt.status with
  | .frame => some .frame
  | .timeout =>
    some (if receipt.grant = .receive ∧ receipt.exhausted then .endOfStream else .timeout)
  | .fault | .notStarted => none

/-- What a step for `grant` has seen that reports `input`: a publication has followed every grant,
its own is the last one, and the input is the result of its own receive. -/
structure OwnPublication (s : HostReplay) (grant : Grant) (input : ReplayInputResult) : Prop where
  published : s.published = s.grants.length
  answered : s.results.map (·.grant) = s.grants
  own : ∃ receipt, s.results.getLast? = some receipt ∧ receipt.grant = grant ∧
    receipt.input = some input

/-- A step that has seen its publication reads the result of its own receive. -/
theorem Inv.lastReceipt (inv : Inv s) {grant : Grant} (own : s.grants.getLast? = some grant)
    (all : s.grants.length = s.published) :
    s.results.map (·.grant) = s.grants ∧ ∃ receipt, s.results.getLast? = some receipt ∧
      receipt.grant = grant ∧ s.gate.lastReceive = receipt.status ∧
      receipt.exhausted = s.pending.isEmpty := by
  obtain ⟨served, unpublished, -, -⟩ := inv.ledger.settled all
  have answered : s.results.map (·.grant) = s.grants := by
    rw [inv.ledger.answered, served, ← all, List.take_length]
  refine ⟨answered, ?_⟩
  rw [← answered, List.getLast?_map, Option.map_eq_some_iff] at own
  obtain ⟨receipt, last, same⟩ := own
  refine ⟨receipt, last, same, inv.notes.noted (fun status there => ?_) receipt last,
    inv.notes.exhausted receipt last⟩
  rw [there] at unpublished
  exact absurd unpublished (by simp [WorkerPlace.unpublished])

/-- **A step reported Ok has seen its own publication.** -/
theorem Inv.reported (inv : Inv s) {move : Move} {input : ReplayInputResult}
    (ok : (s.step move).2 = some ⟨.ok, input⟩) : ∃ grant,
    (s.controller = .reading grant ∨ s.controller = .readingEnd grant) ∧
      OwnPublication s grant input := by
  cases move with
  | readLast =>
    unfold HostReplay.step at ok
    dsimp only at ok
    split at ok
    · next grant reads =>
      obtain ⟨own, all⟩ := inv.control.seen grant (.inr (.inl reads))
      obtain ⟨answered, receipt, last, same, noted, -⟩ := inv.lastReceipt own all
      refine ⟨grant, .inl reads, all.symm, answered, receipt, last, same, ?_⟩
      split at ok
      · next frame =>
        have status : receipt.status = .frame := noted.symm.trans frame
        simp only [HostReplay.report, Option.some.injEq, ReplayStepResult.mk.injEq, true_and] at ok
        simp [Receipt.input, status, ← ok]
      · next timeout =>
        have status : receipt.status = .timeout := noted.symm.trans timeout
        split at ok
        · simp at ok
        · next other =>
          simp only [HostReplay.report, Option.some.injEq, ReplayStepResult.mk.injEq, true_and] at ok
          simp [Receipt.input, status, same, other, ← ok]
      all_goals simp [HostReplay.failStep] at ok
    · simp at ok
  | readEnd =>
    unfold HostReplay.step at ok
    dsimp only at ok
    split at ok
    · next grant reads =>
      obtain ⟨own, all⟩ := inv.control.seen grant (.inr (.inr reads))
      obtain ⟨rfl, timeout⟩ := inv.control.readingEnd grant reads
      obtain ⟨answered, receipt, last, same, noted, exhausted⟩ := inv.lastReceipt own all
      refine ⟨.receive, .inr reads, all.symm, answered, receipt, last, same, ?_⟩
      simp only [HostReplay.report, Option.some.injEq, ReplayStepResult.mk.injEq, true_and] at ok
      unfold Receipt.input
      rw [← noted, timeout, same, exhausted, ← ok]
      simp
    · simp at ok
  | _ =>
    -- Every other move that ends a step reports a failure.
    exfalso
    revert ok
    unfold HostReplay.step
    dsimp only [HostReplay.endWait, HostReplay.failStep]
    repeat' split
    all_goals simp

/-! ### The law -/

/-- Once the barrier is cancelled and the source is stopped, no step of the worker puts it to
sleep. -/
theorem staysAwake (cancelled : s.barrier.cancelled = true) (stopped : s.gate.running = false)
    (awake : s.worker.asleep = false) (choice : WorkerChoice) :
    (s.workerStep choice).worker.asleep = false := by
  have passes : ∀ epoch, s.barrier.passes epoch = true := by
    simp [PublicationBarrier.passes, cancelled]
  have wakes : s.gate.wakes = true := by simp [GatedReplaySource.wakes, stopped]
  rcases place : s.worker with _ | _ | _ | _ | _ | _ | _ | _ | _ | _ | _ <;>
    simp only [HostReplay.workerStep, place]
  case absent | exited | asleepReceive | asleepPublish => rwa [place] at awake
  case ready => split <;> rfl
  case receiving => simp [wakes, stopped, WorkerPlace.asleep]
  case granted => rfl
  case noting => rfl
  case processing =>
    simp [HostReplay.publish, PublicationBarrier.complete, cancelled, WorkerPlace.asleep]
  case returned =>
    cases choice <;>
      simp [HostReplay.publish, PublicationBarrier.complete, cancelled, WorkerPlace.asleep]
  case wokenPublish => simp [passes, WorkerPlace.asleep]

/-- What the step protocol promises in a state. -/
structure Synchronous (s : HostReplay) : Prop where
  /-- At most one grant is without its publication. -/
  oneGrant : s.grants.length ≤ s.published + 1
  /-- The wait of a step succeeds only when as many publications as grants were seen: the epoch is
  the number of the step's own grant, so it is not reached by the publication of an earlier one. -/
  ownEpoch : ∀ grant epoch asleep, s.controller = .waiting grant epoch asleep →
    s.grants.getLast? = some grant ∧ epoch = s.grants.length ∧
      (s.barrier.waitFor epoch = true → s.published = s.grants.length)
  /-- A step reported Ok has seen its own publication, and its input is the result of its grant. -/
  reported : ∀ move input, (s.step move).2 = some ⟨.ok, input⟩ → ∃ grant,
    (s.controller = .reading grant ∨ s.controller = .readingEnd grant) ∧
      OwnPublication s grant input
  /-- From the moment the wait has succeeded until the next step or a cancellation, the worker is
  parked in its publication, and changes nothing. -/
  parked : ∀ grant, s.controller = .draining grant → s.barrier.cancelled = false →
    ∀ moves : List Move, (∀ move ∈ moves, move ≠ .cancel ∧ ∀ grant, move ≠ .processInput grant) →
      Parked (after step s moves) ∧ Undisturbed s (after step s moves)

/-- After a cancellation and a stop, with their notifications, the worker does not sleep; and once
both flags are set it never goes to sleep again. -/
structure Released (s : HostReplay) : Prop where
  awake : s.cancelNotifies = false → s.stopNotifies = false → s.worker.asleep = false
  staysAwake : s.worker.asleep = false → ∀ choice, (s.workerStep choice).worker.asleep = false

theorem Sleepers.released (sleepers : Sleepers s) (cancelled : s.barrier.cancelled = true)
    (stopped : s.gate.running = false) : Released s := by
  refine ⟨fun told told' => ?_, Replay.staysAwake cancelled stopped⟩
  -- Whoever still slept would be about to be notified.
  rcases place : s.worker with _ | _ | _ | _ | _ | _ | _ | _ | epoch | _ | _
  case asleepReceive =>
    have waits := sleepers.atGate place
    simp [stopped, told'] at waits
  case asleepPublish =>
    have waits := sleepers.atBarrier epoch place
    simp [cancelled, told] at waits
  all_goals rfl

/-- **Replay steps are synchronous**, in every interleaving of the controller, the worker, timeouts
and cancellations that makes fewer than 2^64 grants; and after a cancellation and a stop the worker
is never left blocked, however many there were. -/
theorem steps_synchronous (frames : List TimedCanFrame) (moves : List Move) :
    let s := after step (initial frames) moves
    (s.grants.length < 2 ^ 64 → Synchronous s) ∧
    (s.barrier.cancelled = true → s.gate.running = false → Released s) := by
  intro s
  have sleepers : Sleepers s := sleepers_run frames moves
  refine ⟨fun few => ?_, sleepers.released⟩
  have inv : Inv s := inv_run frames moves few
  refine ⟨inv.ledger.outstanding.2, fun grant epoch asleep waits => ?_, fun _ _ => inv.reported,
    fun grant seen live moves between => (inv.parked sleepers seen live).run moves between⟩
  obtain ⟨last, own⟩ := inv.control.waiting grant epoch asleep waits
  refine ⟨last, own, fun seen => ?_⟩
  simp only [waitFor, Bool.and_eq_true, Bool.not_eq_true',
    decide_eq_true_eq] at seen
  have count := (inv.epochs.count seen.1.2).1
  have served := inv.ledger.served
  have bounds := inv.ledger.outstanding
  omega

/-- A frame is granted, received, published and reported, with the worker asleep for both waits. -/
def frameStep : List Move :=
  [.start true, .worker .proceed, .worker .proceed, .launch true, .processInput .receive, .offer,
    .checkWait, .worker .proceed, .worker .proceed, .worker .proceed, .worker .proceed,
    .checkWait, .drain true]

theorem steps_synchronous_frame :
    ∃ grant, OwnPublication (after step (initial [⟨0, {}⟩]) frameStep) grant .frame := by
  have synchronous := (steps_synchronous [⟨0, {}⟩] frameStep).1 (by decide)
  obtain ⟨grant, -, own⟩ := synchronous.reported .readLast .frame (by decide)
  exact ⟨grant, own⟩

/-! ### The end of the epochs -/

/-- A step for a timeout, from its beginning to its report. -/
def timeoutStep : List Move :=
  [.processInput .timeout, .worker .proceed, .offer, .worker .proceed, .worker .proceed,
    .worker .proceed, .worker .proceed, .worker .proceed, .checkWait, .drain true, .readLast]

/-- Between two steps, the last of them for a timeout: the worker is parked at an epoch. -/
structure Rested (epoch : ℕ) (s : HostReplay) : Prop where
  gate : s.gate = ⟨.timeout, .timeout, true, false, false⟩
  barrier : s.barrier = ⟨epoch + 1, epoch, false⟩
  worker : s.worker = .asleepPublish (epoch + 1)
  state : s.state = .running
  controller : s.controller = .idle
  published : s.published = epoch + 1
  grants : s.grants.length = epoch + 1

theorem rested_first :
    Rested 0 (after step (initial []) ([.start true, .launch true] ++ timeoutStep)) := by
  constructor <;> decide

theorem Rested.shape (rested : Rested epoch s) :
    s = { s with
      gate := ⟨.timeout, .timeout, true, false, false⟩, barrier := ⟨epoch + 1, epoch, false⟩,
      worker := .asleepPublish (epoch + 1), state := .running, controller := .idle,
      published := epoch + 1 } := by
  rw [← rested.gate, ← rested.barrier, ← rested.worker, ← rested.state, ← rested.controller,
    ← rested.published]

theorem Rested.next (rested : Rested epoch s) (room : epoch + 2 < 2 ^ 64) :
    Rested (epoch + 1) (after step s timeoutStep) := by
  rw [rested.shape]
  have wraps : (epoch + 1 + 1) % 2 ^ 64 = epoch + 1 + 1 := Nat.mod_eq_of_lt room
  have behind : epoch < epoch + 1 := Nat.lt_succ_self epoch
  have ahead : ¬ epoch + 1 + 1 ≤ epoch + 1 := Nat.not_succ_le_self _
  simp only [after, timeoutStep, List.foldl_cons, List.foldl_nil, step,
    prepareStep, wraps, behind, HostReplay.notifyBarrier, HostReplay.workerStep,
    WorkerPlace.notified, ControllerPlace.notified, PublicationBarrier.passes, Nat.le_refl,
    GatedReplaySource.offer, GatedReplaySource.wakes, HostReplay.notifyGate, HostReplay.receiveFor,
    HostReplay.publish, PublicationBarrier.complete, ahead, PublicationBarrier.reached,
    HostReplay.endWait, waitFor, HostReplay.report, ne_eq, not_true_eq_false,
    if_false, if_true, Bool.false_eq_true, decide_true, decide_false, Bool.or_true, Bool.or_false,
    Bool.not_true, Bool.not_false, Bool.and_true, reduceCtorEq]
  constructor <;> simp [rested.grants]

theorem Rested.rounds (rested : Rested epoch s) (rounds : ℕ) (room : epoch + rounds + 1 < 2 ^ 64) :
    Rested (epoch + rounds)
      (after step s (List.replicate rounds timeoutStep).flatten) := by
  induction rounds generalizing epoch s with
  | zero => exact rested
  | succ rounds ih =>
    rw [List.replicate_succ, List.flatten_cons, after_append]
    have rest := ih (rested.next (by omega)) (by omega)
    rwa [Nat.add_right_comm, Nat.add_assoc] at rest

/-- A step for a fault, until it reads the result. -/
def faultStep : List Move := [.processInput .fault, .offer, .checkWait, .drain true]

/-- At the last epoch the next one is zero, which was reached long ago: the step is reported Ok
before its publication, with the result of the step before it. -/
theorem Rested.last (rested : Rested epoch s) (full : epoch + 1 + 1 = 2 ^ 64) :
    ((after step s faultStep).step .readLast).2 = some ⟨.ok, .timeout⟩ ∧
      (after step s faultStep).published <
        (after step s faultStep).grants.length := by
  rw [rested.shape]
  have reached : (epoch + 1 + 1) % 18446744073709551616 ≤ epoch + 1 := by omega
  simp [after, faultStep, step, prepareStep,
    PublicationBarrier.reached, waitFor, GatedReplaySource.offer,
    HostReplay.notifyBarrier, WorkerPlace.notified, ControllerPlace.notified, HostReplay.notifyGate,
    HostReplay.endWait, HostReplay.report, reached, rested.grants]

/-- As many steps for timeouts as there are epochs, and a step for a fault. -/
def wrappedSteps : List Move :=
  ([.start true, .launch true] ++ timeoutStep) ++
    (List.replicate (2 ^ 64 - 2) timeoutStep).flatten ++ faultStep

/-- **The epochs repeat** after 2^64 − 1 steps: the next one is reported Ok, though the publication
of its grant was not seen. -/
theorem wrapped_step_unpublished :
    ((after step (initial []) wrappedSteps).step .readLast).2 = some ⟨.ok, .timeout⟩ ∧
      ∀ grant input,
        ¬ OwnPublication (after step (initial []) wrappedSteps) grant input := by
  rw [wrappedSteps, after_append, after_append]
  have rested := rested_first.rounds (2 ^ 64 - 2) (by decide)
  rw [Nat.zero_add] at rested
  obtain ⟨reported, behind⟩ := rested.last (by decide)
  exact ⟨reported, fun grant input own => Nat.ne_of_lt behind own.published⟩

end AccessoryController.Replay
