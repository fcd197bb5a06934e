import AccessoryController.LocalArgb.Frame

/-!
# Zone rendering

A zone is filled with an exact amount of light: whole pixels in fill order, and the remainder as
a dimmed next pixel. The loops of the source are folds over the offsets they visit.

## Main definitions

* `validateZone`: whether a zone fits the strip
* `fillZone`: lights a fraction of a zone
-/

namespace AccessoryController.LocalArgb

inductive ZoneValidity
  | valid | emptyZone | outOfRange | unknownDirection
  deriving DecidableEq, Repr

def isKnownDirection : FillDirection → Bool
  | .startToEnd | .endToStart | .centerOut => true
  | .unknown _ => false

/-- Checks a zone against the strip. -/
def validateZone (zone : LedZone) (pixelCount : ℕ) : ZoneValidity :=
  if !isKnownDirection zone.direction then .unknownDirection
  else if zone.length = 0 then .emptyZone
  else if kMaxLedCount < pixelCount ∨ pixelCount ≤ zone.start ∨
      pixelCount - zone.start < zone.length then .outOfRange
  else .valid

def scaleChannel (channel : UInt8) (numerator denominator : ℕ) : UInt8 :=
  UInt8.ofNat (channel.toNat * numerator / denominator)

def scale (color : Rgb) (numerator denominator : ℕ) : Rgb :=
  ⟨scaleChannel color.red numerator denominator, scaleChannel color.green numerator denominator,
    scaleChannel color.blue numerator denominator⟩

inductive Step
  | forward | backward
  deriving DecidableEq, Repr

/-- A run of at most `capacity` pixels lit outward from `origin`, `amount / unit` of them. -/
structure Run where
  origin : ℕ := 0
  step : Step := .forward
  capacity : ℕ := 0
  amount : ℕ := 0
  unit : ℕ := 1

/-- A partial pixel that scales to black is not written. -/
def writePixel (frame : PixelFrame) (index : ℕ) (color : Rgb) : PixelFrame :=
  if color ≠ kBlack then frame.put index color else frame

/-- The pixel at an offset of a run. -/
def Run.pixel (run : Run) (offset : ℕ) : ℕ :=
  if run.step = .forward then run.origin + offset else run.origin - offset

/-- Writes `color` at the first `count` pixels that `position` visits. -/
def paintRun (frame : PixelFrame) (count : ℕ) (position : ℕ → ℕ) (color : Rgb) : PixelFrame :=
  (List.range count).foldl (fun frame offset => frame.put (position offset) color) frame

def lightRun (frame : PixelFrame) (run : Run) (color : Rgb) : PixelFrame :=
  let wholePixels := run.amount / run.unit
  let lit := if wholePixels < run.capacity then wholePixels else run.capacity
  let frame := paintRun frame lit run.pixel color
  let remainder := run.amount % run.unit
  if remainder ≠ 0 ∧ lit < run.capacity then
    writePixel frame (run.pixel lit) (scale color remainder run.unit)
  else frame

/-- The centre pixel of an odd zone takes the first whole pixel; each side takes half of what
is left. -/
def lightCenterOut (frame : PixelFrame) (zone : LedZone) (litAmount unit : ℕ) (color : Rgb) :
    PixelFrame :=
  let half := zone.length / 2
  let centre := zone.start + half
  let odd := zone.length % 2 ≠ 0
  let frame :=
    if odd then
      if unit ≤ litAmount then frame.put centre color
      else if litAmount ≠ 0 then writePixel frame centre (scale color litAmount unit)
      else frame
    else frame
  let sideAmount := if odd then litAmount - unit else litAmount
  let rightOrigin := if odd then centre + 1 else centre
  if half = 0 ∨ sideAmount = 0 then frame
  else
    let sideUnit := 2 * unit
    let frame := lightRun frame ⟨centre - 1, .backward, half, sideAmount, sideUnit⟩ color
    lightRun frame ⟨rightOrigin, .forward, half, sideAmount, sideUnit⟩ color

/-- Lights `fraction` of `zone` in `color`; an invalid zone writes nothing. -/
def fillZone (frame : PixelFrame) (zone : LedZone) (fraction : FillFraction) (color : Rgb) :
    PixelFrame × ZoneValidity :=
  let validity := validateZone zone kMaxLedCount
  if validity ≠ .valid then (frame, validity)
  else
    let litAmount := zone.length * fraction.numerator
    let unit := fraction.denominator
    match zone.direction with
    | .startToEnd => (lightRun frame ⟨zone.start, .forward, zone.length, litAmount, unit⟩ color,
        .valid)
    | .endToStart => (lightRun frame
        ⟨zone.start + zone.length - 1, .backward, zone.length, litAmount, unit⟩ color, .valid)
    | .centerOut => (lightCenterOut frame zone litAmount unit color, .valid)
    | .unknown _ => (frame, .valid)

end AccessoryController.LocalArgb
