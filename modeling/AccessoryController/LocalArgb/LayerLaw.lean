import AccessoryController.Library.Painter
import AccessoryController.LocalArgb.Renderer
import AccessoryController.LocalArgb.ZonePixels

/-!
# What the layers of a command show

A layer owns its region: it is cleared and drawn there, and nowhere else. The drawn frame is
therefore, at every pixel, what the topmost layer over it draws alone, or the background.

## Main definitions

* `Confined`: a drawing that stays inside a region and depends on nothing outside
* `Layer.Covers`, `Layer.alone`: the region of a layer, and the layer on a black frame
* `RendererController.background`: the frame under the layers

## Main results

* `confined_drawLayer`: every layer is drawn inside its region
* `at_drawOwned`: a layer over its cleared region
* `layers_compose`: the drawn frame
-/

namespace AccessoryController.LocalArgb

open VehicleCore

/-! ### Confined drawing -/

/-- A drawing that stays inside a region and depends on nothing outside. -/
structure Confined (draw : PixelFrame → PixelFrame) (region : ℕ → Prop) : Prop where
  outside : ∀ frame i, ¬ region i → (draw frame).at i = frame.at i
  inside : ∀ frame frame', (∀ i, region i → frame.at i = frame'.at i) →
    ∀ i, region i → (draw frame).at i = (draw frame').at i

section Confined

variable {region : ℕ → Prop} {draw next : PixelFrame → PixelFrame}

theorem confined_id : Confined (fun frame => frame) region :=
  ⟨fun _ _ _ => rfl, fun _ _ same i here => same i here⟩

theorem Confined.comp (first : Confined draw region) (second : Confined next region) :
    Confined (fun frame => next (draw frame)) region := by
  constructor
  · intro frame i there
    rw [second.outside _ i there, first.outside _ i there]
  · intro frame frame' same
    exact second.inside _ _ (first.inside _ _ same)

theorem Confined.ite {P : Prop} [Decidable P] (yes : P → Confined draw region)
    (no : ¬ P → Confined next region) :
    Confined (fun frame => if P then draw frame else next frame) region := by
  by_cases h : P
  · simp only [h, if_true]
    exact yes h
  · simp only [h, if_false]
    exact no h

theorem confined_put {index : ℕ} (here : region index) (color : Rgb) :
    Confined (fun frame => frame.put index color) region := by
  constructor
  · intro frame i there
    have elsewhere : ¬ (i = index ∧ index < kMaxLedCount) := fun both => there (both.1 ▸ here)
    rw [at_put, if_neg elsewhere]
  · intro frame frame' same i within
    rw [at_put, at_put, same i within]

/-- A loop of confined steps. -/
theorem confined_foldl {X : Type} {step : PixelFrame → X → PixelFrame} (l : List X)
    (steps : ∀ x ∈ l, Confined (fun frame => step frame x) region) :
    Confined (fun frame => l.foldl step frame) region := by
  induction l with
  | nil => exact confined_id
  | cons x l ih =>
    exact (steps x List.mem_cons_self).comp (ih fun y mem => steps y (List.mem_cons_of_mem x mem))

theorem confined_paintRun {count : ℕ} {position : ℕ → ℕ}
    (within : ∀ k < count, region (position k)) (color : Rgb) :
    Confined (fun frame => paintRun frame count position color) region :=
  confined_foldl _ fun k mem => confined_put (within k (List.mem_range.mp mem)) color

end Confined

theorem confined_fillZone (zone : LedZone) (fraction : FillFraction) (color : Rgb) :
    Confined (fun frame => (fillZone frame zone fraction color).1) zone.Covers := by
  by_cases valid : validateZone zone kMaxLedCount = .valid
  · constructor
    · intro frame i there
      rw [at_fillZone frame valid, if_neg there]
    · intro frame frame' same i here
      rw [at_fillZone frame valid, at_fillZone frame' valid, if_pos here, if_pos here,
        same i here]
  · have unchanged : ∀ frame, (fillZone frame zone fraction color).1 = frame := by
      intro frame
      simp [fillZone, valid]
    simp only [unchanged]
    exact confined_id

/-! ### Turn animations -/

/-- The regions of the turns. -/
def LeftTurnRegion (i : ℕ) : Prop := i < kTurnLedCount

def RightTurnRegion (pixelCount i : ℕ) : Prop :=
  pixelCount - kTurnLedCount ≤ i ∧ i < pixelCount - kTurnLedCount + kTurnLedCount

theorem confined_drawFlow_left (phase pixelCount : ℕ) :
    Confined (fun frame => drawFlow frame true phase pixelCount) LeftTurnRegion := by
  simp only [drawFlow, if_true]
  refine confined_foldl _ fun tail _ => Confined.ite (fun within => confined_put ?_ _)
    fun _ => confined_id
  exact within

theorem confined_drawFlow_right {phase : ℕ} (short : phase < kTurnLedCount) (pixelCount : ℕ) :
    Confined (fun frame => drawFlow frame false phase pixelCount) (RightTurnRegion pixelCount) := by
  simp only [drawFlow, Bool.false_eq_true, if_false]
  refine confined_foldl _ fun tail _ => Confined.ite (fun behind => confined_put ?_ _)
    fun _ => confined_id
  unfold RightTurnRegion
  omega

theorem confined_drawCenterOutFill_left {phase : ℕ} (short : phase < kTurnLedCount)
    (pixelCount : ℕ) :
    Confined (fun frame => drawCenterOutFill frame true phase pixelCount) LeftTurnRegion := by
  refine confined_paintRun (fun offset below => ?_) _
  simp only [if_true, LeftTurnRegion]
  omega

theorem confined_drawCenterOutFill_right {phase : ℕ} (short : phase < kTurnLedCount)
    (pixelCount : ℕ) :
    Confined (fun frame => drawCenterOutFill frame false phase pixelCount)
      (RightTurnRegion pixelCount) := by
  refine confined_paintRun (fun offset below => ?_) _
  simp only [Bool.false_eq_true, if_false, RightTurnRegion]
  omega

/-- The animations of the product. -/
def Shipped (animation : AnimationStrategy) : Prop :=
  animation = renderRunningFlow ∨ animation = renderCenterOutFill

variable {animation : AnimationStrategy} {pixelCount : ℕ}

/-- **A turn animation** stays inside the region of its side. -/
theorem confined_animation (shipped : Shipped animation) (elapsedUs pixelCount : ℕ) :
    Confined (fun frame => animation frame ⟨true, false, elapsedUs, pixelCount⟩) LeftTurnRegion ∧
      Confined (fun frame => animation frame ⟨false, true, elapsedUs, pixelCount⟩)
        (RightTurnRegion pixelCount) := by
  rcases shipped with rfl | rfl
  · have short : elapsedUs / kFlowStepUs % kTurnLedCount < kTurnLedCount :=
      Nat.mod_lt _ (by decide)
    exact ⟨confined_drawFlow_left _ pixelCount, confined_drawFlow_right short pixelCount⟩
  · have bound : elapsedUs / kFlowStepUs % (kTurnLedCount + 1) < kTurnLedCount + 1 :=
      Nat.mod_lt _ (by decide)
    -- In the last step of a cycle nothing is drawn.
    have running : elapsedUs / kFlowStepUs % (kTurnLedCount + 1) ≠ kTurnLedCount →
        elapsedUs / kFlowStepUs % (kTurnLedCount + 1) < kTurnLedCount := by omega
    exact ⟨Confined.ite (fun _ => confined_id)
        fun drawn => confined_drawCenterOutFill_left (running drawn) pixelCount,
      Confined.ite (fun _ => confined_id)
        fun drawn => confined_drawCenterOutFill_right (running drawn) pixelCount⟩

/-! ### Layers -/

/-- The region of a layer. -/
def Layer.Covers (layer : Layer) (i : ℕ) : Prop :=
  layer.start ≤ i ∧ i < layer.start + layer.count

instance (layer : Layer) (i : ℕ) : Decidable (layer.Covers i) :=
  inferInstanceAs (Decidable (_ ∧ _))

/-- A layer drawn alone, on a black frame. -/
def Layer.alone (layer : Layer) (animation : AnimationStrategy) (elapsedUs pixelCount : ℕ) :
    PixelFrame :=
  drawLayer kBlackFrame layer animation elapsedUs pixelCount

/-- The region of a layer is that of its effect. -/
def Layer.Placed (layer : Layer) (pixelCount : ℕ) : Prop :=
  match layer.kind with
  | .fill fill => layer.start = fill.zone.start ∧ layer.count = fill.zone.length
  | .brake => True
  | .leftTurn => layer.start = 0 ∧ layer.count = kTurnLedCount
  | .rightTurn => layer.start = pixelCount - kTurnLedCount ∧ layer.count = kTurnLedCount

theorem placed_of_mem_layerStack {command : LightingCommand} {transients : LightingFills}
    {layer : Layer} (mem : layer ∈ layerStack command transients pixelCount) :
    layer.Placed pixelCount := by
  unfold layerStack at mem
  simp only [List.mem_append, List.mem_map, List.mem_ite_nil_right, List.mem_singleton] at mem
  rcases mem with (((⟨fill, -, rfl⟩ | ⟨-, rfl⟩) | ⟨-, rfl⟩) | ⟨-, rfl⟩) | ⟨fill, -, rfl⟩
  · exact ⟨rfl, rfl⟩
  · trivial
  · exact ⟨rfl, rfl⟩
  · exact ⟨rfl, rfl⟩
  · exact ⟨rfl, rfl⟩

/-- **Every layer** is drawn inside its region. -/
theorem confined_drawLayer (shipped : Shipped animation) {layer : Layer}
    (placed : layer.Placed pixelCount) (elapsedUs : ℕ) :
    Confined (fun frame => drawLayer frame layer animation elapsedUs pixelCount) layer.Covers := by
  obtain ⟨left, right⟩ := confined_animation shipped elapsedUs pixelCount
  unfold Layer.Placed at placed
  unfold drawLayer
  cases kind : layer.kind with
  | fill fill =>
    rw [kind] at placed
    have region : layer.Covers = fill.zone.Covers := by
      funext i
      rw [Layer.Covers, LedZone.Covers, placed.1, placed.2]
    rw [region]
    exact confined_fillZone fill.zone fill.level (ceilingClamped fill.color)
  | brake =>
    refine confined_paintRun (fun k below => ?_) kRed
    exact ⟨Nat.le_add_right _ _, Nat.add_lt_add_left below _⟩
  | leftTurn =>
    rw [kind] at placed
    have region : layer.Covers = LeftTurnRegion := by
      funext i
      rw [Layer.Covers, LeftTurnRegion, placed.1, placed.2, Nat.zero_add]
      exact propext (and_iff_right (Nat.zero_le i))
    rw [region]
    exact left
  | rightTurn =>
    rw [kind] at placed
    have region : layer.Covers = RightTurnRegion pixelCount := by
      funext i
      rw [Layer.Covers, RightTurnRegion, placed.1, placed.2]
    rw [region]
    exact right

theorem at_of_ge (frame : PixelFrame) {i : ℕ} (past : kMaxLedCount ≤ i) : frame.at i = kBlack := by
  rw [PixelFrame.at, Vector.getElem?_eq_none past]
  rfl

/-- **A layer over its cleared region** shows what it draws alone there, and nothing elsewhere. -/
theorem at_drawOwned (shipped : Shipped animation) {layer : Layer}
    (placed : layer.Placed pixelCount) (elapsedUs : ℕ) (frame : PixelFrame) (i : ℕ) :
    (drawOwned frame layer animation elapsedUs pixelCount).at i =
      if layer.Covers i then (layer.alone animation elapsedUs pixelCount).at i
      else frame.at i := by
  have confined := confined_drawLayer shipped placed elapsedUs
  have visited : ∀ j, (∃ k < layer.count, layer.start + k = j) ↔ layer.Covers j := by
    intro j
    constructor
    · rintro ⟨k, below, rfl⟩
      exact ⟨Nat.le_add_right _ _, Nat.add_lt_add_left below _⟩
    · rintro ⟨low, high⟩
      exact ⟨j - layer.start, by omega, by omega⟩
  have cleared : ∀ j, (paintRun frame layer.count (layer.start + ·) kBlack).at j =
      if layer.Covers j then kBlack else frame.at j := by
    intro j
    rw [at_paintRun]
    simp only [visited]
    by_cases covered : layer.Covers j
    · by_cases inside : j < kMaxLedCount
      · rw [if_pos ⟨covered, inside⟩, if_pos covered]
      · rw [if_neg fun both => inside both.2, if_pos covered,
          at_of_ge frame (Nat.le_of_not_lt inside)]
    · rw [if_neg fun both => covered both.1, if_neg covered]
  unfold drawOwned
  by_cases covered : layer.Covers i
  · rw [if_pos covered]
    refine confined.inside _ kBlackFrame (fun j here => ?_) i covered
    rw [cleared, if_pos here, at_kBlackFrame]
  · rw [if_neg covered, confined.outside _ i covered, cleared, if_neg covered]

/-! ### The drawn frame -/

/-- The order of the layers is the one of the painter. -/
theorem insertFromTop_eq (layer : Layer) (s : List Layer) :
    insertFromTop layer s = Painter.insertFromTop (·.priority.rank) layer s := by
  induction s with
  | nil => rfl
  | cons top below ih =>
    rw [insertFromTop, Painter.insertFromTop, ih]

theorem sortByPriority_eq (layers : List Layer) :
    sortByPriority layers = (Painter.fromTop (·.priority.rank) layers).reverse := by
  unfold sortByPriority Painter.fromTop
  simp only [insertFromTop_eq]

namespace RendererController

/-- The lit effects of the held command, in drawing order. -/
def layers (r : RendererController) : List Layer :=
  layerStack r.command (r.transients.active r.command.transients) r.pixelCount

/-- A command without fills, brake and turns, which shows its generic colour. -/
def colourOnly (r : RendererController) : Bool :=
  !r.command.leftTurn && !r.command.rightTurn && !r.command.brake &&
    r.command.fills.fills.isEmpty

/-- The colour of a pixel under the layers: the generic colour on the active length when the command
has nothing else, and black otherwise. -/
def background (r : RendererController) (i : ℕ) : Rgb :=
  if r.colourOnly ∧ i < r.pixelCount ∧ i < kMaxLedCount then ceilingClamped r.command.color
  else kBlack

/-- The time of the animations. -/
def elapsed (r : RendererController) (nowUs : MonotonicTimestamp) : ℕ :=
  if r.animationStartedUs ≤ nowUs then nowUs - r.animationStartedUs else 0

end RendererController

/-- **The drawn frame** shows, at every pixel, what the topmost layer over it draws alone: the layer
of greatest priority, and of these the one that is latest in the drawing order. A pixel under no
layer has the background of the command, which is black when no generic colour is set. -/
theorem layers_compose (r : RendererController) (shipped : Shipped r.animation)
    (nowUs : MonotonicTimestamp) (i : ℕ) :
    (∀ position layer,
      Painter.Topmost (·.priority.rank) (·.Covers i) r.layers position layer →
      (r.drawFrame nowUs kBlackFrame).at i =
        (layer.alone r.animation (r.elapsed nowUs) r.pixelCount).at i) ∧
      ((∃ layer ∈ r.layers, layer.Covers i) → ∃ position layer,
        Painter.Topmost (·.priority.rank) (·.Covers i) r.layers position layer) ∧
      ((∀ layer ∈ r.layers, ¬ layer.Covers i) →
        (r.drawFrame nowUs kBlackFrame).at i = r.background i) ∧
      (r.command.color = kBlack → r.background i = kBlack) := by
  have ground : (if r.colourOnly then
      paintRun kBlackFrame r.pixelCount id (ceilingClamped r.command.color)
      else kBlackFrame).at i = r.background i := by
    unfold RendererController.background
    cases r.colourOnly with
    | false => simp [at_kBlackFrame]
    | true => simp [at_paintRun, at_kBlackFrame]
  have drawn : (r.drawFrame nowUs kBlackFrame).at i =
      (((Painter.fromTop (·.priority.rank) r.layers).find? fun layer => layer.Covers i).map
        fun layer => (layer.alone r.animation (r.elapsed nowUs) r.pixelCount).at i).getD
        (r.background i) := by
    have painted := Painter.read_paint (fun frame : PixelFrame => frame.at i)
      (fun frame layer => drawOwned frame layer r.animation (r.elapsed nowUs) r.pixelCount)
      (fun layer => (layer.alone r.animation (r.elapsed nowUs) r.pixelCount).at i)
      (if r.colourOnly then paintRun kBlackFrame r.pixelCount id (ceilingClamped r.command.color)
        else kBlackFrame) (Painter.fromTop (·.priority.rank) r.layers) fun layer mem frame =>
        at_drawOwned shipped (placed_of_mem_layerStack (Painter.mem_fromTop.mp mem)) _ frame i
    rw [ground, ← sortByPriority_eq] at painted
    exact painted
  refine ⟨fun position layer top => ?_, Painter.exists_topmost, fun uncovered => ?_, fun unset => ?_⟩
  · rw [drawn, top.find?]
    rfl
  · have none : (Painter.fromTop (·.priority.rank) r.layers).find?
        (fun layer => layer.Covers i) = none := by
      refine List.find?_eq_none.mpr fun layer mem => ?_
      simpa using uncovered layer (Painter.mem_fromTop.mp mem)
    rw [drawn, none]
    rfl
  · rw [RendererController.background, unset]
    exact ite_self kBlack

/-- A fill that reaches into the brake region, with the priority of the brake. -/
def overlappingBrake : RendererController where
  command :=
    { brake := true
      fills := ⟨[⟨⟨30, 10, .startToEnd⟩, .full, ⟨0, 0, 200⟩, {}⟩], by decide⟩ }

theorem layers_compose_overlap :
    (overlappingBrake.drawFrame 0 kBlackFrame).at 36 = kRed ∧
      (overlappingBrake.drawFrame 0 kBlackFrame).at 32 = ⟨0, 0, 16⟩ ∧
      (overlappingBrake.drawFrame 0 kBlackFrame).at 80 = kBlack := by
  have shipped : Shipped overlappingBrake.animation := .inl rfl
  have layers : overlappingBrake.layers =
      [.ofFill ⟨⟨30, 10, .startToEnd⟩, .full, ⟨0, 0, 200⟩, {}⟩, ⟨.brake, {}, 35, 30⟩] := rfl
  have brake : Painter.Topmost (·.priority.rank) (·.Covers 36) overlappingBrake.layers 1
      ⟨.brake, {}, 35, 30⟩ := by
    refine ⟨rfl, by decide, fun j other listed _ => .inr ⟨?_, ?_⟩⟩
    · rw [layers] at listed
      rcases List.mem_pair.mp (List.mem_of_getElem? listed) with rfl | rfl <;> rfl
    · have := (List.getElem?_eq_some_iff.mp listed).1
      rw [layers] at this
      exact Nat.le_of_lt_succ this
  have fill : Painter.Topmost (·.priority.rank) (·.Covers 32) overlappingBrake.layers 0
      (.ofFill ⟨⟨30, 10, .startToEnd⟩, .full, ⟨0, 0, 200⟩, {}⟩) := by
    refine ⟨rfl, by decide, fun j other listed seen => ?_⟩
    rw [layers] at listed
    match j with
    | 0 =>
      cases listed
      exact .inr ⟨rfl, Nat.le_refl 0⟩
    | 1 =>
      cases listed
      exact absurd seen (by decide)
    | _ + 2 => cases listed
  refine ⟨?_, ?_, ?_⟩
  · rw [(layers_compose overlappingBrake shipped 0 36).1 1 _ brake]
    decide +kernel
  · rw [(layers_compose overlappingBrake shipped 0 32).1 0 _ fill]
    decide +kernel
  · rw [(layers_compose overlappingBrake shipped 0 80).2.2.1 (by rw [layers]; decide)]
    rfl

end AccessoryController.LocalArgb
