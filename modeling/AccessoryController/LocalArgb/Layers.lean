import AccessoryController.LocalArgb.LedZone

/-!
# Animations and layers

The lit effects of a command are layers. They are sorted stably by priority and drawn in that
order, and each owns its whole region: it is cleared before it is drawn.

## Main definitions

* `renderRunningFlow`, `renderCenterOutFill`: the turn animations
* `layerStack`: the lit effects of a command, in drawing order
* `sortByPriority`: the stable insertion sort of the layers
* `drawOwned`: a layer drawn over its cleared region
-/

namespace AccessoryController.LocalArgb

open VehicleCore

def kBrightnessCeiling : ℕ := 16

def kTurnLedCount : ℕ := 35

def kBrakeLedCount : ℕ := 30

def kFlowStepUs : ℕ := 33333

def kFlowTailLength : ℕ := 5

def kAmber : Rgb := ⟨128, 16, 0⟩

def kRed : Rgb := ⟨UInt8.ofNat kBrightnessCeiling, 0, 0⟩

def ceilingClampedChannel (channel : UInt8) : UInt8 :=
  if kBrightnessCeiling < channel.toNat then UInt8.ofNat kBrightnessCeiling else channel

def ceilingClamped (color : Rgb) : Rgb :=
  ⟨ceilingClampedChannel color.red, ceilingClampedChannel color.green,
    ceilingClampedChannel color.blue⟩

structure AnimationContext where
  leftTurn : Bool := false
  rightTurn : Bool := false
  elapsedUs : ℕ := 0
  pixelCount : ℕ := kDefaultLedCount

/-- A strategy only draws into the frame. -/
abbrev AnimationStrategy := PixelFrame → AnimationContext → PixelFrame

/-- The flow starts beside the brake region and travels outward; its tail is clipped where it
would leave the turn region. -/
def drawFlow (frame : PixelFrame) (left : Bool) (phase pixelCount : ℕ) : PixelFrame :=
  (List.range kFlowTailLength).foldl (fun frame tail =>
    let color := scale kAmber (kFlowTailLength - tail) kFlowTailLength
    if left then
      let position := kTurnLedCount - 1 - phase + tail
      if position < kTurnLedCount then frame.put position color else frame
    else if tail ≤ phase then frame.put (pixelCount - kTurnLedCount + phase - tail) color
    else frame) frame

def drawCenterOutFill (frame : PixelFrame) (left : Bool) (phase pixelCount : ℕ) : PixelFrame :=
  paintRun frame (phase + 1) (fun offset =>
    if left then kTurnLedCount - 1 - offset else pixelCount - kTurnLedCount + offset) kAmber

def renderRunningFlow : AnimationStrategy := fun frame context =>
  let phase := context.elapsedUs / kFlowStepUs % kTurnLedCount
  let frame := if context.leftTurn then drawFlow frame true phase context.pixelCount else frame
  if context.rightTurn then drawFlow frame false phase context.pixelCount else frame

def renderCenterOutFill : AnimationStrategy := fun frame context =>
  let cycleStep := context.elapsedUs / kFlowStepUs % (kTurnLedCount + 1)
  if cycleStep = kTurnLedCount then frame
  else
    let frame := if context.leftTurn then drawCenterOutFill frame true cycleStep
      context.pixelCount else frame
    if context.rightTurn then drawCenterOutFill frame false cycleStep context.pixelCount
    else frame

/-- What a layer draws. -/
inductive LayerKind
  | fill (fill : LightingFill)
  | brake
  | leftTurn
  | rightTurn

/-- One lit effect and the region it owns while no higher layer covers it. -/
structure Layer where
  kind : LayerKind
  priority : EffectPriority
  start : ℕ
  count : ℕ

/-- A fill as a layer. -/
def Layer.ofFill (fill : LightingFill) : Layer :=
  ⟨.fill fill, fill.priority, fill.zone.start, fill.zone.length⟩

/-- The lit effects of a command, in drawing order: fills, brake, left turn, right turn,
transients. Fills that are empty or have an invalid zone own nothing. -/
def layerStack (command : LightingCommand) (transients : LightingFills) (pixelCount : ℕ) :
    List Layer :=
  (command.fills.fills.filter fun fill =>
      ¬ fill.level.same .empty ∧ validateZone fill.zone pixelCount = .valid).map Layer.ofFill ++
  (if command.brake then
    [⟨.brake, command.priorities.brake, (pixelCount - kBrakeLedCount) / 2, kBrakeLedCount⟩]
  else []) ++
  (if command.leftTurn then [⟨.leftTurn, command.priorities.leftTurn, 0, kTurnLedCount⟩]
  else []) ++
  (if command.rightTurn then
    [⟨.rightTurn, command.priorities.rightTurn, pixelCount - kTurnLedCount, kTurnLedCount⟩]
  else []) ++
  transients.fills.map Layer.ofFill

/-- Moves a layer down a sorted stack, given from its top, past the layers of higher rank. -/
def insertFromTop (layer : Layer) : List Layer → List Layer
  | [] => [layer]
  | top :: below =>
    if layer.priority.rank < top.priority.rank then top :: insertFromTop layer below
    else layer :: top :: below

/-- Stable insertion sort by ascending priority. -/
def sortByPriority (layers : List Layer) : List Layer :=
  (layers.foldl (fun sorted layer => insertFromTop layer sorted) []).reverse

def drawLayer (frame : PixelFrame) (layer : Layer) (animation : AnimationStrategy)
    (elapsedUs pixelCount : ℕ) : PixelFrame :=
  match layer.kind with
  | .fill fill => (fillZone frame fill.zone fill.level (ceilingClamped fill.color)).1
  | .brake => paintRun frame layer.count (layer.start + ·) kRed
  | .leftTurn => animation frame ⟨true, false, elapsedUs, pixelCount⟩
  | .rightTurn => animation frame ⟨false, true, elapsedUs, pixelCount⟩

/-- A layer drawn over its cleared region. -/
def drawOwned (frame : PixelFrame) (layer : Layer) (animation : AnimationStrategy)
    (elapsedUs pixelCount : ℕ) : PixelFrame :=
  drawLayer (paintRun frame layer.count (layer.start + ·) kBlack) layer animation elapsedUs
    pixelCount

end AccessoryController.LocalArgb
