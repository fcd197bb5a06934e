import AccessoryController.LocalArgb.Layers

/-!
# The renderer

The state machine of the strip: it holds the last command and the timing of its transients, and
writes a frame when the desired one differs from the last one written. A refused write latches a
fault and is followed by a black frame.

## Main definitions

* `TransientLayers`: the renderer's own timing of the transients
* `RendererController`: the state of the renderer
* `Offer`: a frame offered to the sink, with the sink's answer
* `RendererController.step`: one call, with the frames it offered
-/

namespace AccessoryController.LocalArgb

open VehicleCore

/-- The timing of one transient. A sequence stays recorded after its cancellation. -/
structure Timing where
  effect : LightingTransient := {}
  sequence : ℕ := 0
  startedUs : MonotonicTimestamp := 0
  active : Bool := false
  deriving DecidableEq, Repr

def Timing.live (timing : Timing) (nowUs : MonotonicTimestamp) : Bool :=
  timing.active && decide (timing.startedUs ≤ nowUs) &&
    decide (nowUs - timing.startedUs < timing.effect.durationUs)

/-- The timing of every transient slot. -/
abbrev TransientLayers := Fin kMaxTransients → Timing

/-- The slot of an identity: the identities 1 to 8 name the slots in order. -/
def TransientId.slot (id : TransientId) : Fin kMaxTransients :=
  ⟨(id.value - 1) % kMaxTransients, Nat.mod_lt _ (by decide)⟩

namespace TransientLayers

def cancel (layers : TransientLayers) : TransientLayers :=
  fun slot => { layers slot with active := false }

def expire (layers : TransientLayers) (nowUs : MonotonicTimestamp) : TransientLayers :=
  fun slot =>
    if (layers slot).live nowUs then layers slot else { layers slot with active := false }

/-- A trigger that is live when it is applied. -/
def starts (start : LightingTransientStart) (nowUs : MonotonicTimestamp)
    (epoch pixelCount : ℕ) : Bool :=
  decide (0 < start.effect.durationUs) &&
    decide (start.effect.durationUs ≤ kMaxTransientDurationUs) &&
    start.epoch == epoch && decide (start.originUs ≤ nowUs) &&
    decide (nowUs - start.originUs < start.effect.durationUs) &&
    validateZone start.effect.zone pixelCount == .valid

/-- Applies the starts of a command: a changed sequence starts its slot, an absent identity
cancels it. -/
def apply (layers : TransientLayers) (list : LightingTransientStarts)
    (nowUs : MonotonicTimestamp) (epoch pixelCount : ℕ) : TransientLayers :=
  let started := list.starts.foldl (fun (timing : TransientLayers) start =>
    let index := start.id.slot
    if (timing index).sequence = start.sequence then timing
    else Function.update timing index
      ⟨start.effect, start.sequence, nowUs, starts start nowUs epoch pixelCount⟩) layers
  fun slot =>
    if list.starts.any fun start => start.id.slot == slot then started slot
    else { started slot with active := false }

/-- The fills of the transients that are still active, in snapshot order. -/
def active (layers : TransientLayers) (list : LightingTransientStarts) : LightingFills :=
  list.starts.foldl (fun (fills : LightingFills) start =>
    let timing := layers start.id.slot
    if timing.active then
      (fills.add ⟨timing.effect.zone, .full, timing.effect.color, timing.effect.priority⟩).1
    else fills) {}

end TransientLayers

/-- A frame offered to the sink: how many leading pixels the write covers, whether the sink
accepted it, and the fault latch at that moment. -/
structure Offer where
  frame : PixelFrame
  length : ℕ
  accepted : Bool
  faulted : Bool

/-- The sink's answer to the n-th write of a call. -/
abbrev SinkAnswers := ℕ → Bool

structure RendererController where
  pixelCount : ℕ := kDefaultLedCount
  command : LightingCommand := {}
  transients : TransientLayers := fun _ => {}
  lastTickUs : MonotonicTimestamp := 0
  transientEpoch : ℕ := 0
  hasCommand : Bool := false
  desired : PixelFrame := kBlackFrame
  lastWritten : PixelFrame := kBlackFrame
  hasLastWritten : Bool := false
  faulted : Bool := false
  animationStartedUs : MonotonicTimestamp := 0
  animation : AnimationStrategy := renderRunningFlow

/-- What an operation leaves: the renderer, the returned value and the frames offered. -/
structure Rendered where
  renderer : RendererController
  result : Bool
  offers : List Offer

namespace RendererController

/-- Sets the active length before the first write. -/
def configurePixelCount (r : RendererController) (count : ℕ) : RendererController × Bool :=
  if count < kDefaultLedCount ∨ kMaxLedCount < count ∨ r.hasLastWritten then (r, false)
  else ({ r with pixelCount := count }, true)

/-- The last frame the sink accepted was black. -/
def blackWritten (r : RendererController) : Bool :=
  r.hasLastWritten && decide (r.lastWritten = kBlackFrame)

/-- The frame of the held command. Without effects and fills it shows the generic colour. -/
def drawFrame (r : RendererController) (nowUs : MonotonicTimestamp) (frame : PixelFrame) :
    PixelFrame :=
  let frame :=
    if !r.command.leftTurn && !r.command.rightTurn && !r.command.brake &&
        r.command.fills.fills.isEmpty then
      paintRun frame r.pixelCount id (ceilingClamped r.command.color)
    else frame
  let transients := r.transients.active r.command.transients
  let layers := sortByPriority (layerStack r.command transients r.pixelCount)
  let elapsed := if r.animationStartedUs ≤ nowUs then nowUs - r.animationStartedUs else 0
  layers.foldl (fun frame layer => drawOwned frame layer r.animation elapsed r.pixelCount) frame

/-- Records an accepted frame. -/
def wrote (r : RendererController) (frame : PixelFrame) : RendererController :=
  { r with lastWritten := frame, hasLastWritten := true }

/-- What a refused write leaves. -/
def refused (r : RendererController) : RendererController :=
  { r with faulted := true, transients := r.transients.cancel, hasLastWritten := false }

/-- Writes the desired frame unless it is the last one written. A refused lit frame is followed by
an attempt to write black. -/
def writeDesired (r : RendererController) (sink : SinkAnswers) (desired : PixelFrame) :
    Rendered :=
  if r.hasLastWritten ∧ desired = r.lastWritten then ⟨r, true, []⟩
  else
    let length := if desired = kBlackFrame then kMaxLedCount else r.pixelCount
    let first : Offer := ⟨desired, length, sink 0, r.faulted⟩
    if sink 0 then ⟨r.wrote desired, true, [first]⟩
    else if desired = kBlackFrame then ⟨r.refused, false, [first]⟩
    else
      let second : Offer := ⟨kBlackFrame, kMaxLedCount, sink 1, r.refused.faulted⟩
      if sink 1 then ⟨r.refused.wrote kBlackFrame, false, [first, second]⟩
      else ⟨r.refused, false, [first, second]⟩

/-- A start forgets the run before it and writes black. -/
def start (r : RendererController) (sink : SinkAnswers) : Rendered :=
  writeDesired
    { r with
      hasCommand := false
      hasLastWritten := false
      faulted := false
      animationStartedUs := 0
      lastTickUs := 0
      transients := fun _ => {}
      transientEpoch := 0 } sink kBlackFrame

/-- The held command may be shown now. -/
def shows (r : RendererController) (nowUs : MonotonicTimestamp) : Prop :=
  r.faulted = false ∧ r.hasCommand = true ∧ r.command.actionable = true ∧
    nowUs ≤ r.command.validUntilUs

instance (r : RendererController) (nowUs : MonotonicTimestamp) : Decidable (r.shows nowUs) :=
  inferInstanceAs (Decidable (_ ∧ _))

/-- The renderer after the transients were cancelled or expired. -/
def settleTransients (r : RendererController) (nowUs : MonotonicTimestamp) :
    RendererController :=
  let transients :=
    if nowUs < r.lastTickUs ∨ r.faulted ∨ !r.command.actionable ∨
        r.command.validUntilUs < nowUs then r.transients.cancel else r.transients
  { r with transients := TransientLayers.expire transients nowUs, lastTickUs := nowUs }

def tick (r : RendererController) (sink : SinkAnswers) (nowUs : MonotonicTimestamp) : Rendered :=
  let r := r.settleTransients nowUs
  let desired := if r.shows nowUs then r.drawFrame nowUs kBlackFrame else kBlackFrame
  writeDesired { r with desired } sink desired

/-- The renderer with a fresh command, before the tick that shows it. A fresh command clears the
fault only after black was written. -/
def accept (r : RendererController) (command : LightingCommand) (nowUs : MonotonicTimestamp)
    (epoch : ℕ) : RendererController :=
  let transients := if epoch ≠ r.transientEpoch then r.transients.cancel else r.transients
  let effectsChanged := !r.hasCommand || command.leftTurn != r.command.leftTurn ||
    command.rightTurn != r.command.rightTurn || command.brake != r.command.brake
  { r with
    transientEpoch := epoch
    transients := TransientLayers.apply transients command.transients nowUs epoch r.pixelCount
    command := command
    hasCommand := true
    animationStartedUs := if effectsChanged then nowUs else r.animationStartedUs
    faulted := if !r.faulted || r.blackWritten then false else r.faulted }

def apply (r : RendererController) (sink : SinkAnswers) (command : LightingCommand)
    (nowUs : MonotonicTimestamp) (epoch : ℕ) : Rendered :=
  (r.accept command nowUs epoch).tick sink nowUs

end RendererController

/-- The calls that reach a renderer. -/
inductive RendererCall
  | start
  | apply (command : LightingCommand) (nowUs : MonotonicTimestamp) (epoch : ℕ)
  | tick (nowUs : MonotonicTimestamp)

/-- What a call answers, with the frames it offered to the sink. -/
structure RendererAnswer where
  result : Bool
  offers : List Offer

/-- One call, with the sink's answers to the writes it makes. -/
def RendererController.step (r : RendererController) (input : RendererCall × SinkAnswers) :
    RendererController × RendererAnswer :=
  let rendered := match input.1 with
    | .start => r.start input.2
    | .apply command nowUs epoch => r.apply input.2 command nowUs epoch
    | .tick nowUs => r.tick input.2 nowUs
  (rendered.renderer, ⟨rendered.result, rendered.offers⟩)

end AccessoryController.LocalArgb
