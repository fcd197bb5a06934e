import AccessoryController.LocalArgb.GateClosed
import AccessoryController.LocalArgb.Renderer
import AccessoryController.LocalArgbActions.LedActionSink

/-!
# The handoff from the adapter to the renderer

The engine's thread executes commands and publishes snapshots through the stall gate; other
threads close and open the gate, fail the strip off and shut it down; a queue of one slot keeps
the latest command; one worker takes it and runs the renderer. Each of them takes atomic steps on
what they share: the gate with its epoch, and the queue.

## Main definitions

* `Handoff`: the adapter, the gate with the places of its threads, the queue and the worker
* `Move`: the next atomic step of the engine's thread, of another thread or of the worker
* `Pass`: one pass of the renderer, with the transients that its frame draws
* `Handoff.step`: the effect of a step, with what it created or drew

## Main results

* `fills_active`: the transient layers of a frame are the drawn occurrences
-/

namespace AccessoryController.LocalArgbActions

open ActionEngine (ActionCommand ActionId)
open LocalArgb
open VehicleCore (MonotonicTimestamp)

/-! ### What a frame draws -/

/-- One run of a transient: the slot of its binding and the sequence of its trigger. -/
structure Occurrence where
  slot : Fin kMaxTransients
  sequence : ℕ
  deriving DecidableEq, Repr

def occurrence (start : LightingTransientStart) : Occurrence := ⟨start.id.slot, start.sequence⟩

/-- The occurrences that the layers of a frame show: those of the listed identities whose timing
is active. -/
def shown (layers : TransientLayers) (list : LightingTransientStarts) : List Occurrence :=
  (list.starts.filter fun start => (layers start.id.slot).active).map fun start =>
    ⟨start.id.slot, (layers start.id.slot).sequence⟩

/-- The fill that an occurrence is drawn with. -/
def drawnFill (layers : TransientLayers) (o : Occurrence) : LightingFill :=
  ⟨(layers o.slot).effect.zone, .full, (layers o.slot).effect.color,
    (layers o.slot).effect.priority⟩

/-- **The transient layers** of a frame are the shown occurrences, in snapshot order. -/
theorem fills_active (layers : TransientLayers) (list : LightingTransientStarts) :
    (layers.active list).fills = (shown layers list).map (drawnFill layers) := by
  -- The loop never meets a full list, since it appends at most one fill for each start.
  have all : ∀ (starts : List LightingTransientStart) (fills : LightingFills),
      fills.fills.length + starts.length ≤ kMaxFills →
      (starts.foldl (fun (fills : LightingFills) start =>
        let timing := layers start.id.slot
        if timing.active then
          (fills.add ⟨timing.effect.zone, .full, timing.effect.color, timing.effect.priority⟩).1
        else fills) fills).fills =
      fills.fills ++ ((starts.filter fun start => (layers start.id.slot).active).map fun start =>
        (⟨start.id.slot, (layers start.id.slot).sequence⟩ : Occurrence)).map
          (drawnFill layers) := by
    intro starts
    induction starts with
    | nil => intro fills _; simp
    | cons start starts ih =>
      intro fills room
      rw [List.length_cons] at room
      rw [List.foldl_cons]
      by_cases active : (layers start.id.slot).active = true
      · have free : ¬ fills.fills.length = kMaxFills := by omega
        rw [ih]
        · simp [active, LightingFills.add, free, drawnFill]
        · simp only [active, LightingFills.add, free, if_true, dite_false, List.length_append,
            List.length_singleton]
          omega
      · rw [ih]
        · simp [active]
        · simp only [active, if_false, Bool.false_eq_true]
          omega
  have bounded : list.starts.length ≤ kMaxTransients := list.bounded
  have appended := all list.starts {} (by simpa [kMaxFills, kMaxTransients] using bounded)
  exact appended.trans (List.nil_append _)

/-- One pass of the renderer: the command it applied with the epoch it read, or neither on a tick;
its time; what its frame draws; and whether the strip took the frame. -/
structure Pass where
  applied : Option (LightingCommand × ℕ)
  nowUs : MonotonicTimestamp
  drawn : List Occurrence
  accepted : Bool

/-- The command applied by the pass lists the occurrence. -/
def Pass.applies (pass : Pass) (o : Occurrence) : Prop :=
  ∃ command epoch, pass.applied = some (command, epoch) ∧
    ∃ start ∈ command.transients.starts, occurrence start = o

/-- What a settled renderer draws. -/
def drawn (r : RendererController) (nowUs : MonotonicTimestamp) : List Occurrence :=
  if r.shows nowUs then shown r.transients r.command.transients else []

/-- A tick of the renderer, as a pass. -/
def tickPass (r : RendererController) (nowUs : MonotonicTimestamp) (sink : SinkAnswers) :
    RendererController × Pass :=
  let rendered := r.tick sink nowUs
  (rendered.renderer, ⟨none, nowUs, drawn (r.settleTransients nowUs) nowUs, rendered.result⟩)

/-- An application of a command, as a pass. -/
def applyPass (r : RendererController) (command : LightingCommand) (nowUs : MonotonicTimestamp)
    (epoch : ℕ) (sink : SinkAnswers) : RendererController × Pass :=
  let rendered := r.apply sink command nowUs epoch
  (rendered.renderer, ⟨some (command, epoch), nowUs,
    drawn ((r.accept command nowUs epoch).settleTransients nowUs) nowUs, rendered.result⟩)

/-! ### The threads -/

/-- What the worker does next. -/
inductive Worker
  /-- waits for a command, and ticks without one -/
  | waiting
  /-- has taken a command from the queue -/
  | received (command : LightingCommand)
  /-- has found the renderer faulted -/
  | faulted

/-- The command that a step hands to the queue and that the queue takes. -/
def handed : Place → Choice → Option LightingCommand
  | .hand command _, .answer true => some command
  | .blacken, .answer true => some {}
  | .closeBlack, .answer true => some {}
  | .failOffBlack, .answer true => some {}
  | _, _ => none

/-- The calls of a thread without a call under way: the adapter is the only publisher, and the
engine's thread enters the gate only to publish its snapshots. -/
def permitted (engine : Bool) : Place → Choice → Bool
  | .idle, .call (.publish _) => false
  | .idle, _ => !engine
  | _, _ => true

/-- The state of the handoff, with any number of threads besides the engine's, which is `none`
among the threads of the gate. `execution` is the command under way with the epoch it read. -/
structure Handoff (T : Type*) where
  leds : LedActionSink
  execution : Option (ActionCommand × ℕ) := none
  gate : Gate × (Option T → Place) := atStart
  mailbox : Option LightingCommand := none
  worker : Worker := .waiting
  renderer : RendererController

/-- The next atomic step of a thread; the scheduler gives the time and the answers. -/
inductive Move (T : Type*)
  /-- the engine's thread starts an execution and reads the epoch -/
  | execute (command : ActionCommand)
  /-- the engine's thread reads the clock, records the command and prepares the snapshot -/
  | record (nowUs : MonotonicTimestamp)
  /-- a thread takes its next step in the gate -/
  | gate (thread : Option T) (choice : Choice)
  /-- the worker takes its next step -/
  | worker (nowUs : MonotonicTimestamp) (sink : SinkAnswers)

/-- What a step made: the starts of a trigger, or a pass of the renderer. -/
inductive Event
  | quiet
  | triggered (starts : List LightingTransientStart)
  | rendered (pass : Pass)

/-- The starts that the execution of a command creates. -/
def created (leds : LedActionSink) (command : ActionCommand) (nowUs : MonotonicTimestamp)
    (epoch : ℕ) : List LightingTransientStart :=
  if command.kind = .trigger then
    (leds.transients.bindings.zipIdx.filter fun entry =>
      entry.1.action == command.action).map fun entry =>
        (entry.1.triggered nowUs epoch).start entry.2
  else []

namespace Handoff

variable {T : Type*} [DecidableEq T]

/-- The engine's thread starts an execution when it has none under way. -/
def execute (s : Handoff T) (command : ActionCommand) : Handoff T :=
  match s.execution, s.gate.2 none with
  | none, .idle => { s with execution := some (command, s.gate.1.epoch.toNat) }
  | _, _ => s

/-- The engine's thread records its command, and enters the gate with what there is to publish. -/
def record (s : Handoff T) (nowUs : MonotonicTimestamp) : Handoff T × Event :=
  match s.execution with
  | none => (s, .quiet)
  | some (command, epoch) =>
    let recorded := s.leds.record command nowUs epoch
    ({ s with
        leds := recorded.1
        execution := none
        gate := match recorded.2 with
          | none => s.gate
          | some snapshot => (s.gate.1, Function.update s.gate.2 none (.enter snapshot)) },
      .triggered (created s.leds command nowUs epoch))

/-- The adapter at the end of a publication. -/
def published (leds : LedActionSink) : Place → LedActionSink
  | .leave result => leds.settle result
  | _ => leds

/-- A thread takes its next step in the gate; the queue keeps the last command handed to it. -/
def pass (s : Handoff T) (thread : Option T) (choice : Choice) : Handoff T :=
  if permitted thread.isNone (s.gate.2 thread) choice then
    { s with
      leds := if thread.isNone then published s.leds (s.gate.2 none) else s.leds
      gate := (Threads.step act s.gate (thread, choice)).1
      mailbox := (handed (s.gate.2 thread) choice).or s.mailbox }
  else s

/-- The worker after a pass. -/
def rendered (s : Handoff T) (result : RendererController × Pass) : Handoff T × Event :=
  ({ s with
      renderer := result.1
      worker := if result.1.faulted then .faulted else .waiting },
    .rendered result.2)

/-- The worker takes a command and applies it under the epoch it reads then, or ticks. A faulted
pass starts a new epoch. -/
def work (s : Handoff T) (nowUs : MonotonicTimestamp) (sink : SinkAnswers) : Handoff T × Event :=
  match s.worker, s.mailbox with
  | .waiting, some command =>
    ({ s with worker := .received command, mailbox := none }, .quiet)
  | .waiting, none => s.rendered (tickPass s.renderer nowUs sink)
  | .received command, _ =>
    s.rendered (applyPass s.renderer command nowUs s.gate.1.epoch.toNat sink)
  | .faulted, _ =>
    ({ s with gate := (s.gate.1.invalidateTransients, s.gate.2), worker := .waiting }, .quiet)

def step (s : Handoff T) : Move T → Handoff T × Event
  | .execute command => (s.execute command, .quiet)
  | .record nowUs => s.record nowUs
  | .gate thread choice => (s.pass thread choice, .quiet)
  | .worker nowUs sink => s.work nowUs sink

end Handoff

/-! ### The history of a run -/

/-- A binding that the composition root registers. -/
inductive Registration
  | effect (action : ActionId) (effect : LedEffect) (priority : EffectPriority)
  | fill (action : ActionId) (effect : FillEffect)
  | transient (action : ActionId) (effect : LightingTransient) (pixelCount : ℕ)

def LedActionSink.register (leds : LedActionSink) : Registration → LedActionSink
  | .effect action effect priority => (leds.bindEffect action effect priority).1
  | .fill action effect => (leds.bindFill action effect).1
  | .transient action effect pixelCount => (leds.bindTransient action effect pixelCount).1

/-- The adapter after its configuration. -/
def LedActionSink.configured (registrations : List Registration) : LedActionSink :=
  registrations.foldl LedActionSink.register {}

/-- The handoff once the renderer was started and the adapter configured. -/
def Handoff.started (T : Type*) (registrations : List Registration) (r : RendererController)
    (sink : SinkAnswers) : Handoff T where
  leds := .configured registrations
  renderer := (r.start sink).renderer

/-- The starts created in a history. -/
def startsOf (events : List Event) : List LightingTransientStart :=
  events.flatMap fun
    | .triggered starts => starts
    | _ => []

/-- The passes of a history. -/
def passesOf (events : List Event) : List Pass :=
  events.filterMap fun
    | .rendered pass => some pass
    | _ => none

/-- The events of a run. -/
def history {T : Type*} [DecidableEq T] (s : Handoff T) (moves : List (Move T)) : List Event :=
  (Machine.trace Handoff.step s moves).map Prod.snd

end AccessoryController.LocalArgbActions
