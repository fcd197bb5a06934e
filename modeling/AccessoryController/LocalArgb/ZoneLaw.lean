import Mathlib.Algebra.Order.Floor.Semifield
import Mathlib.Data.Rat.Floor
import Mathlib.Tactic.Positivity
import AccessoryController.Library.Checked
import AccessoryController.LocalArgb.ZonePixels

/-!
# What a zone fill shows

A fill lights an exact, in general fractional, number of pixels. Each pixel of the zone takes the
part of the colour that this number leaves for its place, rounded down in every channel.

## Main definitions

* `Words.fillZone`: the fill of a zone, operation by operation
* `LedZone.share`: the part of the colour that a pixel takes
* `Rgb.Shaded`: a pixel that has a share of a colour

## Main results

* `Words.lightRun_eq`: a run that stays inside the frame
* `Words.fillZone_eq`: the fill of any zone computes what it does on unbounded numbers
* `shaded_shadeOver`: a pixel of a run over black
* `zone_fill`: the exact colours of a fill, its monotonicity and its extremes
-/

namespace AccessoryController.LocalArgb.Words

open Checked

/-! ### Zone rendering in machine words

The same functions with every operation on the words of the controller: lengths and positions in
32 bits, amounts in 64 bits. No operation overflows, and no write leaves the frame. -/

/-- The width of a length or a position. -/
def kSizeBits : ℕ := 32

def scaleChannel (channel : UInt8) (numerator denominator : ℕ) : Checked UInt8 := do
  let product ← mul 64 channel.toNat numerator
  let quotient ← quotient product denominator
  let value ← narrow 8 quotient
  pure (UInt8.ofNat value)

def scale (color : Rgb) (numerator denominator : ℕ) : Checked Rgb := do
  let red ← scaleChannel color.red numerator denominator
  let green ← scaleChannel color.green numerator denominator
  let blue ← scaleChannel color.blue numerator denominator
  pure ⟨red, green, blue⟩

def writePixel (frame : PixelFrame) (index : ℕ) (color : Rgb) : Checked PixelFrame :=
  if color ≠ kBlack then set frame index color else pure frame

/-- The pixel at an offset of a run. -/
def pixel (run : Run) (offset : ℕ) : Checked ℕ :=
  if run.step = .forward then add kSizeBits run.origin offset
  else sub run.origin offset

def lightRun (frame : PixelFrame) (run : Run) (color : Rgb) : Checked PixelFrame := do
  let wholePixels ← quotient run.amount run.unit
  let lit := if wholePixels < run.capacity then wholePixels else run.capacity
  let frame ← (List.range lit).foldlM (fun frame offset => do
    let index ← pixel run offset
    set frame index color) frame
  let remainder ← remainder run.amount run.unit
  if remainder ≠ 0 ∧ lit < run.capacity then do
    let index ← pixel run lit
    let partialColor ← scale color remainder run.unit
    writePixel frame index partialColor
  else pure frame

/-- The centre pixel of an odd zone. -/
def lightCentre (frame : PixelFrame) (centre litAmount unit : ℕ) (color : Rgb) :
    Checked PixelFrame :=
  if unit ≤ litAmount then set frame centre color
  else if litAmount ≠ 0 then do
    let partialColor ← scale color litAmount unit
    writePixel frame centre partialColor
  else pure frame

/-- What the centre pixel of an odd zone leaves for the sides. -/
def sideAmount (litAmount unit : ℕ) : Checked ℕ :=
  if unit < litAmount then sub litAmount unit else pure 0

/-- The two sides of a centre-out zone. -/
def lightSides (frame : PixelFrame) (half centre rightOrigin sideAmount unit : ℕ) (color : Rgb) :
    Checked PixelFrame :=
  if half = 0 ∨ sideAmount = 0 then pure frame
  else do
    let sideUnit ← mul 64 2 unit
    let leftOrigin ← sub centre 1
    let frame ← lightRun frame ⟨leftOrigin, .backward, half, sideAmount, sideUnit⟩ color
    lightRun frame ⟨rightOrigin, .forward, half, sideAmount, sideUnit⟩ color

def lightCenterOut (frame : PixelFrame) (zone : LedZone) (litAmount unit : ℕ) (color : Rgb) :
    Checked PixelFrame := do
  let half ← quotient zone.length 2
  let centre ← add kSizeBits zone.start half
  let odd ← remainder zone.length 2
  if odd ≠ 0 then do
    let frame ← lightCentre frame centre litAmount unit color
    let rest ← sideAmount litAmount unit
    let rightOrigin ← add kSizeBits centre 1
    lightSides frame half centre rightOrigin rest unit color
  else lightSides frame half centre centre litAmount unit color

def validateZone (zone : LedZone) (pixelCount : ℕ) : Checked ZoneValidity :=
  if !isKnownDirection zone.direction then pure .unknownDirection
  else if zone.length = 0 then pure .emptyZone
  else if kMaxLedCount < pixelCount ∨ pixelCount ≤ zone.start then pure .outOfRange
  else do
    let room ← sub pixelCount zone.start
    if room < zone.length then pure .outOfRange else pure .valid

def fillZone (frame : PixelFrame) (zone : LedZone) (fraction : FillFraction) (color : Rgb) :
    Checked (PixelFrame × ZoneValidity) := do
  let validity ← validateZone zone kMaxLedCount
  if validity ≠ .valid then pure (frame, validity)
  else do
    let litAmount ← mul 64 zone.length fraction.numerator
    let unit := fraction.denominator
    match zone.direction with
    | .startToEnd =>
      let frame ← lightRun frame ⟨zone.start, .forward, zone.length, litAmount, unit⟩ color
      pure (frame, .valid)
    | .endToStart =>
      let past ← add kSizeBits zone.start zone.length
      let last ← sub past 1
      let frame ← lightRun frame ⟨last, .backward, zone.length, litAmount, unit⟩ color
      pure (frame, .valid)
    | .centerOut =>
      let frame ← lightCenterOut frame zone litAmount unit color
      pure (frame, .valid)
    | .unknown _ => pure (frame, .valid)

/-! ### Colours and runs -/

/-- Units of at most 33 bits leave room for the product with a channel. -/
theorem scaleChannel_eq (channel : UInt8) {numerator denominator : ℕ}
    (less : numerator < denominator) (small : denominator ≤ 2 ^ 33) :
    scaleChannel channel numerator denominator =
      .ok (LocalArgb.scaleChannel channel numerator denominator) := by
  have product : channel.toNat * numerator < 2 ^ 64 :=
    calc channel.toNat * numerator ≤ 2 ^ 8 * 2 ^ 33 :=
          Nat.mul_le_mul (Nat.le_of_lt channel.toNat_lt) (by omega)
      _ < 2 ^ 64 := by decide
  have quotient : channel.toNat * numerator / denominator < 2 ^ 8 := by
    refine Nat.lt_of_le_of_lt (Nat.div_le_of_le_mul ?_) channel.toNat_lt
    rw [Nat.mul_comm denominator]
    exact Nat.mul_le_mul_left _ (Nat.le_of_lt less)
  rw [scaleChannel, mul_eq product, ok_bind, quotient_eq (by omega),
    ok_bind, narrow_eq quotient, ok_bind]
  rfl

theorem scale_eq (color : Rgb) {numerator denominator : ℕ} (less : numerator < denominator)
    (small : denominator ≤ 2 ^ 33) :
    scale color numerator denominator = .ok (LocalArgb.scale color numerator denominator) := by
  rw [scale, scaleChannel_eq _ less small, scaleChannel_eq _ less small,
    scaleChannel_eq _ less small]
  rfl

variable (frame : PixelFrame)

theorem writePixel_eq {index : ℕ} (inside : index < kMaxLedCount) (color : Rgb) :
    writePixel frame index color = .ok (LocalArgb.writePixel frame index color) := by
  unfold writePixel LocalArgb.writePixel
  split_ifs
  · exact set_eq inside
  · rfl

/-- A loop of writes whose positions are words inside the frame. -/
theorem foldlM_eq {count : ℕ} {position : ℕ → ℕ} {word : ℕ → Checked ℕ}
    (words : ∀ k < count, word k = .ok (position k))
    (inside : ∀ k < count, position k < kMaxLedCount) (color : Rgb) :
    (List.range count).foldlM (fun frame offset => do
      let index ← word offset
      set frame index color) frame = .ok (paintRun frame count position color) := by
  unfold paintRun
  induction count with
  | zero => rfl
  | succ count ih =>
    rw [List.range_succ, List.foldlM_append, List.foldl_append,
      ih (fun k below => words k (Nat.lt_succ_of_lt below))
        fun k below => inside k (Nat.lt_succ_of_lt below), ok_bind, List.foldlM_cons,
      words count (Nat.lt_succ_self count), ok_bind,
      set_eq (inside count (Nat.lt_succ_self count))]
    rfl

theorem pixel_eq {run : Run} (fits : run.Fits) {offset : ℕ} (within : offset < run.capacity) :
    pixel run offset = .ok (run.pixel offset) := by
  have inside := fits.inside offset within
  have small : kMaxLedCount < 2 ^ kSizeBits := by decide
  unfold pixel
  unfold Run.pixel at inside ⊢
  cases step : run.step with
  | forward =>
    rw [step, if_pos rfl] at inside
    rw [if_pos rfl, if_pos rfl, add_eq (by omega)]
  | backward =>
    have := fits.backward step
    rw [if_neg (by decide), if_neg (by decide), sub_eq (by omega)]

/-- **A run that stays inside the frame.** -/
theorem lightRun_eq {run : Run} (fits : run.Fits) (positive : 0 < run.unit)
    (small : run.unit ≤ 2 ^ 33) (color : Rgb) :
    lightRun frame run color = .ok (LocalArgb.lightRun frame run color) := by
  have within : ∀ k < (if run.amount / run.unit < run.capacity then run.amount / run.unit
      else run.capacity), k < run.capacity := by
    intro k below
    split_ifs at below <;> omega
  unfold lightRun LocalArgb.lightRun
  rw [quotient_eq (by omega), ok_bind]
  dsimp only
  rw [foldlM_eq frame (fun k below => pixel_eq fits (within k below))
      (fun k below => fits.inside k (within k below)), ok_bind,
    remainder_eq (by omega), ok_bind]
  split_ifs with whole room room
  all_goals
    first
    | rfl
    | rw [pixel_eq fits room.2, ok_bind, scale_eq color (Nat.mod_lt _ positive) small,
        ok_bind, writePixel_eq _ (fits.inside _ room.2)]

/-! ### Zones -/

theorem lightCentre_eq {centre : ℕ} (inside : centre < kMaxLedCount) {litAmount unit : ℕ}
    (small : unit ≤ 2 ^ 33) (color : Rgb) :
    lightCentre frame centre litAmount unit color =
      .ok (if unit ≤ litAmount then frame.put centre color
        else if litAmount ≠ 0 then
          LocalArgb.writePixel frame centre (LocalArgb.scale color litAmount unit)
        else frame) := by
  unfold lightCentre
  split_ifs with whole lit
  · exact set_eq inside
  · rw [scale_eq color (Nat.lt_of_not_le whole) small, ok_bind,
      writePixel_eq frame inside]
  · rfl

theorem lightSides_eq {half centre rightOrigin : ℕ} (left : half ≤ centre)
    (order : centre ≤ rightOrigin) (right : rightOrigin + half ≤ kMaxLedCount) (sideAmount : ℕ)
    {unit : ℕ} (positive : 0 < unit) (small : unit < 2 ^ 32) (color : Rgb) :
    lightSides frame half centre rightOrigin sideAmount unit color =
      .ok (if half = 0 ∨ sideAmount = 0 then frame
        else LocalArgb.lightRun
          (LocalArgb.lightRun frame ⟨centre - 1, .backward, half, sideAmount, 2 * unit⟩ color)
          ⟨rightOrigin, .forward, half, sideAmount, 2 * unit⟩ color) := by
  unfold lightSides
  by_cases dark : half = 0 ∨ sideAmount = 0
  · rw [if_pos dark, if_pos dark]
    rfl
  · rw [if_neg dark, if_neg dark, mul_eq (by omega), ok_bind,
      sub_eq (by omega), ok_bind,
      lightRun_eq _ (Run.fits_backward (by omega) (by omega)) (by simp only; omega)
        (by simp only; omega), ok_bind,
      lightRun_eq _ (Run.fits_forward right) (by simp only; omega) (by simp only; omega)]

theorem sideAmount_eq (litAmount unit : ℕ) :
    sideAmount litAmount unit = .ok (litAmount - unit) := by
  unfold sideAmount
  split_ifs with more
  · exact sub_eq (Nat.le_of_lt more)
  · rw [Nat.sub_eq_zero_of_le (Nat.le_of_not_lt more)]
    rfl

theorem lightCenterOut_eq {zone : LedZone} (inside : zone.start + zone.length ≤ kMaxLedCount)
    (litAmount : ℕ) {unit : ℕ} (positive : 0 < unit) (small : unit < 2 ^ 32) (color : Rgb) :
    lightCenterOut frame zone litAmount unit color =
      .ok (LocalArgb.lightCenterOut frame zone litAmount unit color) := by
  have bound : kMaxLedCount < 2 ^ kSizeBits := by decide
  unfold lightCenterOut LocalArgb.lightCenterOut
  rw [quotient_eq (by decide), ok_bind, add_eq (by omega),
    ok_bind, remainder_eq (by decide), ok_bind]
  by_cases odd : zone.length % 2 ≠ 0
  · simp only [if_pos odd]
    rw [lightCentre_eq frame (by omega) (by omega), ok_bind, sideAmount_eq,
      ok_bind, add_eq (by omega), ok_bind,
      lightSides_eq _ (by omega) (by omega) (by omega) _ positive small]
  · simp only [if_neg odd]
    exact lightSides_eq frame (by omega) (by omega) (by omega) litAmount positive small color

theorem validateZone_eq (zone : LedZone) (pixelCount : ℕ) :
    validateZone zone pixelCount = .ok (LocalArgb.validateZone zone pixelCount) := by
  unfold validateZone LocalArgb.validateZone
  cases isKnownDirection zone.direction with
  | false => rfl
  | true =>
    simp only [Bool.not_true, Bool.false_eq_true, if_false]
    by_cases empty : zone.length = 0
    · rw [if_pos empty, if_pos empty]
      rfl
    · rw [if_neg empty, if_neg empty]
      by_cases outside : kMaxLedCount < pixelCount ∨ pixelCount ≤ zone.start
      · rw [if_pos outside, if_pos (by omega)]
        rfl
      · rw [if_neg outside, sub_eq (by omega), ok_bind]
        by_cases long : pixelCount - zone.start < zone.length
        · rw [if_pos long, if_pos (by omega)]
          rfl
        · rw [if_neg long, if_neg (by omega)]
          rfl

/-- **The fill of a zone in machine words** is the one on unbounded numbers: no operation
overflows, divides by zero or indexes past the frame. -/
theorem fillZone_eq (zone : LedZone) (fraction : FillFraction)
    (small : fraction.denominator < 2 ^ 32) (color : Rgb) :
    fillZone frame zone fraction color = .ok (LocalArgb.fillZone frame zone fraction color) := by
  unfold fillZone LocalArgb.fillZone
  rw [validateZone_eq, ok_bind]
  by_cases valid : LocalArgb.validateZone zone kMaxLedCount = .valid
  · obtain ⟨-, positive, -, inside⟩ := validateZone_iff.mp valid
    have unit_pos := fraction.positive
    have amount : zone.length * fraction.numerator < 2 ^ 64 :=
      calc zone.length * fraction.numerator ≤ kMaxLedCount * 2 ^ 32 :=
            Nat.mul_le_mul (by omega)
              (Nat.le_trans fraction.bounded (Nat.le_of_lt small))
        _ < 2 ^ 64 := by decide
    have bound : kMaxLedCount < 2 ^ kSizeBits := by decide
    have wide : fraction.denominator ≤ 2 ^ 33 := by omega
    rw [if_neg (not_not.mpr valid), mul_eq amount, ok_bind]
    simp only [valid, ne_eq, not_true_eq_false, if_false]
    cases zone.direction with
    | startToEnd =>
      simp only
      rw [lightRun_eq frame (Run.fits_forward inside) unit_pos wide, ok_bind]
      rfl
    | endToStart =>
      simp only
      rw [add_eq (by omega), ok_bind, sub_eq (by omega), ok_bind,
        lightRun_eq frame (Run.fits_backward (by omega) (by omega)) unit_pos wide,
        ok_bind]
      rfl
    | centerOut =>
      simp only
      rw [lightCenterOut_eq frame inside _ unit_pos small, ok_bind]
      rfl
    | unknown _ => rfl
  · simp only [valid, ne_eq, not_false_eq_true, if_true]
    rfl

end AccessoryController.LocalArgb.Words

namespace AccessoryController.LocalArgb

/-! ### Exact shares -/

/-- A share of a pixel, between nothing and the whole. -/
def clampShare (x : ℚ) : ℚ := max 0 (min 1 x)

theorem clampShare_mono {x y : ℚ} (le : x ≤ y) : clampShare x ≤ clampShare y :=
  max_le_max le_rfl (min_le_min le_rfl le)

theorem clampShare_of_one_le {x : ℚ} (h : 1 ≤ x) : clampShare x = 1 := by
  rw [clampShare, min_eq_left h, max_eq_right zero_le_one]

theorem clampShare_of_nonpos {x : ℚ} (h : x ≤ 0) : clampShare x = 0 := by
  rw [clampShare, min_eq_right (h.trans zero_le_one), max_eq_left h]

theorem clampShare_of_mem {x : ℚ} (low : 0 ≤ x) (high : x ≤ 1) : clampShare x = x := by
  rw [clampShare, min_eq_right high, max_eq_right low]

/-- **The part of the colour that a pixel of a zone takes** when `lit` pixels are to be lit. The
single centre pixel of an odd centre-out zone comes first, and each side takes half of the rest. -/
def LedZone.share (zone : LedZone) (lit : ℚ) (i : ℕ) : ℚ :=
  match zone.direction with
  | .startToEnd | .unknown _ => clampShare (lit - (i - zone.start : ℕ))
  | .endToStart => clampShare (lit - (zone.start + zone.length - 1 - i : ℕ))
  | .centerOut =>
    let centre := zone.start + zone.length / 2
    if zone.length % 2 ≠ 0 then
      if i = centre then clampShare lit
      else clampShare
        ((lit - 1) / 2 - ((if i < centre then centre - 1 - i else i - (centre + 1)) : ℕ))
    else clampShare (lit / 2 - ((if i < centre then centre - 1 - i else i - centre) : ℕ))

/-- A pixel that has a share of a colour, rounded down in every channel. -/
def Rgb.Shaded (pixel color : Rgb) (share : ℚ) : Prop :=
  pixel.red.toNat = ⌊color.red.toNat * share⌋₊ ∧
    pixel.green.toNat = ⌊color.green.toNat * share⌋₊ ∧
    pixel.blue.toNat = ⌊color.blue.toNat * share⌋₊

theorem toNat_scaleChannel (channel : UInt8) {numerator denominator : ℕ}
    (le : numerator ≤ denominator) :
    (scaleChannel channel numerator denominator).toNat =
      channel.toNat * numerator / denominator := by
  have bound : channel.toNat * numerator / denominator ≤ channel.toNat := by
    refine Nat.div_le_of_le_mul ?_
    rw [Nat.mul_comm denominator]
    exact Nat.mul_le_mul_left _ le
  rw [scaleChannel, UInt8.toNat_ofNat', Nat.mod_eq_of_lt]
  exact Nat.lt_of_le_of_lt bound channel.toNat_lt

variable {unit : ℕ} (color : Rgb) (zone : LedZone)

theorem shaded_scale {numerator denominator : ℕ} (le : numerator ≤ denominator) :
    (scale color numerator denominator).Shaded color ((numerator : ℚ) / denominator) := by
  have channel : ∀ c : UInt8, (scaleChannel c numerator denominator).toNat =
      ⌊(c.toNat : ℚ) * ((numerator : ℚ) / denominator)⌋₊ := by
    intro c
    rw [toNat_scaleChannel c le, ← mul_div_assoc, ← Nat.cast_mul, Nat.floor_div_eq_div]
  exact ⟨channel _, channel _, channel _⟩

theorem shaded_one : color.Shaded color 1 := by
  unfold Rgb.Shaded
  simp only [mul_one, Nat.floor_natCast, and_self]

theorem shaded_zero : kBlack.Shaded color 0 := by
  unfold Rgb.Shaded
  simp only [mul_zero, Nat.floor_zero]
  exact ⟨rfl, rfl, rfl⟩

/-- **A pixel of a run over black** has the share that the amount leaves for its place. -/
theorem shaded_shadeOver (amount k : ℕ) (positive : 0 < unit) :
    (shadeOver color amount unit k kBlack).Shaded color (clampShare ((amount : ℚ) / unit - k)) := by
  have unit_pos : (0 : ℚ) < unit := Nat.cast_pos.mpr positive
  have rest_lt : amount % unit < unit := Nat.mod_lt _ positive
  have exact : (amount : ℚ) / unit = (amount / unit : ℕ) + ((amount % unit : ℕ) : ℚ) / unit := by
    field_simp
    exact_mod_cast (Nat.div_add_mod' amount unit).symm.trans (by ring)
  have rest_nonneg : (0 : ℚ) ≤ ((amount % unit : ℕ) : ℚ) / unit := by positivity
  have rest_le : ((amount % unit : ℕ) : ℚ) / unit ≤ 1 := by
    rw [div_le_one unit_pos]
    exact_mod_cast rest_lt.le
  unfold shadeOver
  rcases Nat.lt_trichotomy k (amount / unit) with lit | rfl | dark
  · have whole : (k : ℚ) + 1 ≤ (amount / unit : ℕ) := by exact_mod_cast lit
    rw [if_pos lit, clampShare_of_one_le (by rw [exact]; linarith)]
    exact shaded_one color
  · -- The partial pixel is skipped when it is black, and then nothing is missing.
    have partialPixel : (if amount / unit = amount / unit ∧
        scale color (amount % unit) unit ≠ kBlack then scale color (amount % unit) unit
        else kBlack) = scale color (amount % unit) unit := by
      by_cases black : scale color (amount % unit) unit = kBlack
      · rw [if_neg fun both => both.2 black, black]
      · rw [if_pos ⟨rfl, black⟩]
    rw [if_neg (Nat.lt_irrefl _), partialPixel, exact, add_sub_cancel_left,
      clampShare_of_mem rest_nonneg rest_le]
    exact shaded_scale color rest_lt.le
  · have beyond : ((amount / unit : ℕ) : ℚ) + 1 ≤ k := by exact_mod_cast dark
    rw [if_neg (Nat.lt_asymm dark), if_neg fun both => Nat.ne_of_gt dark both.1,
      clampShare_of_nonpos (by rw [exact]; linarith)]
    exact shaded_zero color

theorem place_unit_pos (litAmount : ℕ) (positive : 0 < unit) (i : ℕ) :
    0 < (zone.place litAmount unit i).2.1 := by
  unfold LedZone.place
  cases zone.direction with
  | startToEnd | unknown _ => exact positive
  | endToStart => exact positive
  | centerOut =>
    dsimp only
    split_ifs <;> simp only <;> omega

/-- The place of a pixel in its run gives it the share of the zone. -/
theorem share_place (litAmount : ℕ) (positive : 0 < unit) (i : ℕ) :
    clampShare (((zone.place litAmount unit i).1 : ℚ) / ((zone.place litAmount unit i).2.1 : ℕ) -
      ((zone.place litAmount unit i).2.2 : ℕ)) = zone.share ((litAmount : ℚ) / unit) i := by
  have unit_pos : (0 : ℚ) < unit := Nat.cast_pos.mpr positive
  have halved : (litAmount : ℚ) / ((2 * unit : ℕ) : ℚ) = (litAmount : ℚ) / unit / 2 := by
    push_cast
    field_simp
  unfold LedZone.place LedZone.share
  cases zone.direction with
  | startToEnd | unknown _ => rfl
  | endToStart => rfl
  | centerOut =>
    by_cases odd : zone.length % 2 ≠ 0
    · rw [if_pos odd, if_pos odd]
      by_cases centre : i = zone.start + zone.length / 2
      · rw [if_pos centre, if_pos centre]
        simp
      · rw [if_neg centre, if_neg centre]
        dsimp only
        rcases Nat.le_total unit litAmount with enough | short
        · have rest : ((litAmount - unit : ℕ) : ℚ) / ((2 * unit : ℕ) : ℚ) =
              ((litAmount : ℚ) / unit - 1) / 2 := by
            push_cast [Nat.cast_sub enough]
            field_simp
          rw [rest]
        · -- The centre pixel takes everything, and the sides stay dark.
          have rest : (litAmount : ℚ) / unit ≤ 1 := by
            rw [div_le_one unit_pos]
            exact_mod_cast short
          have behind : (0 : ℚ) ≤ ((if i < zone.start + zone.length / 2 then
              zone.start + zone.length / 2 - 1 - i
              else i - (zone.start + zone.length / 2 + 1) : ℕ) : ℚ) := Nat.cast_nonneg _
          rw [Nat.sub_eq_zero_of_le short, Nat.cast_zero, zero_div,
            clampShare_of_nonpos (by linarith), clampShare_of_nonpos (by linarith)]
    · rw [if_neg odd, if_neg odd]
      rw [halved]

theorem share_mono {lit lit' : ℚ} (le : lit ≤ lit') (i : ℕ) :
    zone.share lit i ≤ zone.share lit' i := by
  unfold LedZone.share
  cases zone.direction with
  | startToEnd | unknown _ => exact clampShare_mono (by linarith)
  | endToStart => exact clampShare_mono (by linarith)
  | centerOut =>
    dsimp only
    split_ifs <;> exact clampShare_mono (by linarith)

/-- A pixel with a larger share is at least as bright in every channel. -/
theorem Rgb.Shaded.mono {pixel pixel' color : Rgb} {share share' : ℚ}
    (shaded : pixel.Shaded color share) (shaded' : pixel'.Shaded color share')
    (le : share ≤ share') :
    pixel.red ≤ pixel'.red ∧ pixel.green ≤ pixel'.green ∧ pixel.blue ≤ pixel'.blue := by
  have channel : ∀ c : UInt8, ⌊(c.toNat : ℚ) * share⌋₊ ≤ ⌊(c.toNat : ℚ) * share'⌋₊ := fun c =>
    Nat.floor_le_floor (mul_le_mul_of_nonneg_left le (Nat.cast_nonneg _))
  rw [UInt8.le_iff_toNat_le, UInt8.le_iff_toNat_le, UInt8.le_iff_toNat_le, shaded.1, shaded.2.1,
    shaded.2.2, shaded'.1, shaded'.2.1, shaded'.2.2]
  exact ⟨channel _, channel _, channel _⟩

/-- At the full amount every place of a zone is lit. -/
theorem place_full {zone : LedZone} {i : ℕ} (positive : 0 < unit) (covers : zone.Covers i) :
    (zone.place (zone.length * unit) unit i).2.2 <
      (zone.place (zone.length * unit) unit i).1 / (zone.place (zone.length * unit) unit i).2.1 := by
  obtain ⟨low, high⟩ := covers
  have whole : zone.length * unit / unit = zone.length := Nat.mul_div_cancel _ positive
  have half : ∀ n, n * unit / (2 * unit) = n / 2 := fun n => by
    rw [Nat.mul_comm n, Nat.mul_comm 2, Nat.mul_div_mul_left _ _ positive]
  have rest : zone.length * unit - unit = (zone.length - 1) * unit := by
    rw [Nat.sub_mul, Nat.one_mul]
  unfold LedZone.place
  cases zone.direction with
  | startToEnd | unknown _ =>
    simp only [whole]
    omega
  | endToStart =>
    simp only [whole]
    omega
  | centerOut =>
    by_cases odd : zone.length % 2 ≠ 0
    · rw [if_pos odd]
      by_cases centre : i = zone.start + zone.length / 2
      · rw [if_pos centre]
        dsimp only
        rw [whole]
        omega
      · rw [if_neg centre]
        dsimp only
        rw [rest, half]
        split_ifs <;> omega
    · rw [if_neg odd]
      dsimp only
      rw [half]
      split_ifs <;> omega

theorem place_empty (unit i : ℕ) : (zone.place 0 unit i).1 = 0 := by
  unfold LedZone.place
  cases zone.direction with
  | startToEnd | unknown _ => rfl
  | endToStart => rfl
  | centerOut =>
    dsimp only
    split_ifs <;> simp

/-! ### The fill of a zone -/

/-- The number of pixels that a fraction of a zone lights. -/
def LedZone.lit (zone : LedZone) (fraction : FillFraction) : ℚ :=
  zone.length * ((fraction.numerator : ℚ) / fraction.denominator)

/-- **The fill of a zone.** Over black, each pixel of the zone has the share of the colour that the
exact number of lit pixels leaves for its place, and a larger fraction makes no pixel darker. The
pixels outside stay as they were, the full fraction lights the whole zone and the empty one
nothing. In machine words nothing overflows and no index leaves the frame. -/
theorem zone_fill (zone : LedZone) (valid : validateZone zone kMaxLedCount = .valid)
    (frame : PixelFrame) (fraction : FillFraction) (color : Rgb) :
    (∀ i, ¬ zone.Covers i → (fillZone frame zone fraction color).1.at i = frame.at i) ∧
      ((∀ i, zone.Covers i → frame.at i = kBlack) →
        (∀ i, zone.Covers i → ((fillZone frame zone fraction color).1.at i).Shaded color
          (zone.share (zone.lit fraction) i)) ∧
        ∀ fraction' : FillFraction,
          fraction.numerator * fraction'.denominator ≤
            fraction'.numerator * fraction.denominator → ∀ i,
          ((fillZone frame zone fraction color).1.at i).red ≤
              ((fillZone frame zone fraction' color).1.at i).red ∧
            ((fillZone frame zone fraction color).1.at i).green ≤
              ((fillZone frame zone fraction' color).1.at i).green ∧
            ((fillZone frame zone fraction color).1.at i).blue ≤
              ((fillZone frame zone fraction' color).1.at i).blue) ∧
      (fraction.numerator = fraction.denominator →
        ∀ i, zone.Covers i → (fillZone frame zone fraction color).1.at i = color) ∧
      (fraction.numerator = 0 → (fillZone frame zone fraction color).1 = frame) ∧
      (fraction.denominator < 2 ^ 32 →
        Words.fillZone frame zone fraction color = .ok (fillZone frame zone fraction color)) := by
  have shaded : (∀ i, zone.Covers i → frame.at i = kBlack) → ∀ fraction' i, zone.Covers i →
      ((fillZone frame zone fraction' color).1.at i).Shaded color
        (zone.share (zone.lit fraction') i) := by
    intro dark fraction' i covers
    have lit : zone.lit fraction' =
        ((zone.length * fraction'.numerator : ℕ) : ℚ) / fraction'.denominator := by
      rw [LedZone.lit]
      push_cast
      ring
    rw [at_fillZone frame valid, if_pos covers, dark i covers, lit,
      ← share_place zone _ fraction'.positive]
    exact shaded_shadeOver color _ _ (place_unit_pos zone _ fraction'.positive i)
  refine ⟨?_, fun dark => ⟨shaded dark fraction, ?_⟩, ?_, ?_, fun small =>
    Words.fillZone_eq frame zone fraction small color⟩
  · intro i outside
    rw [at_fillZone frame valid, if_neg outside]
  · intro fraction' le i
    by_cases covers : zone.Covers i
    · refine (shaded dark fraction i covers).mono (shaded dark fraction' i covers)
        (share_mono zone ?_ i)
      refine mul_le_mul_of_nonneg_left ?_ (Nat.cast_nonneg _)
      rw [div_le_div_iff₀ (Nat.cast_pos.mpr fraction.positive)
        (Nat.cast_pos.mpr fraction'.positive)]
      exact_mod_cast le
    · rw [at_fillZone frame valid, at_fillZone frame valid, if_neg covers, if_neg covers]
      exact ⟨UInt8.le_refl _, UInt8.le_refl _, UInt8.le_refl _⟩
  · intro full i covers
    rw [at_fillZone frame valid, if_pos covers, full, shadeOver,
      if_pos (place_full fraction.positive covers)]
  · intro empty
    refine frame_ext fun i => ?_
    rw [at_fillZone frame valid, empty, Nat.mul_zero, place_empty, shadeOver_zero, ite_self]

/-- Five centre-out pixels at one half: the centre, and three quarters of one pixel on each side. -/
theorem zone_fill_centre :
    ((fillZone kBlackFrame ⟨10, 5, .centerOut⟩ (.of 1 2) ⟨200, 0, 10⟩).1.at 13).Shaded
        ⟨200, 0, 10⟩ (3 / 4) ∧
      (fillZone kBlackFrame ⟨10, 5, .centerOut⟩ (.of 1 2) ⟨200, 0, 10⟩).1.at 15 = kBlack ∧
      (fillZone kBlackFrame ⟨10, 5, .centerOut⟩ .full ⟨200, 0, 10⟩).1.at 14 = ⟨200, 0, 10⟩ ∧
      (fillZone kBlackFrame ⟨10, 5, .centerOut⟩ .empty ⟨200, 0, 10⟩).1 = kBlackFrame ∧
      Words.fillZone kBlackFrame ⟨10, 5, .centerOut⟩ (.of 1 2) ⟨200, 0, 10⟩ =
        .ok (fillZone kBlackFrame ⟨10, 5, .centerOut⟩ (.of 1 2) ⟨200, 0, 10⟩) := by
  obtain ⟨outside, dark, -, -, words⟩ := zone_fill ⟨10, 5, .centerOut⟩ (by decide) kBlackFrame
    (.of 1 2) ⟨200, 0, 10⟩
  obtain ⟨-, -, full, -⟩ := zone_fill ⟨10, 5, .centerOut⟩ (by decide) kBlackFrame .full
    ⟨200, 0, 10⟩
  obtain ⟨-, -, -, empty, -⟩ := zone_fill ⟨10, 5, .centerOut⟩ (by decide) kBlackFrame .empty
    ⟨200, 0, 10⟩
  refine ⟨?_, (outside 15 (by decide)).trans (at_kBlackFrame 15), full rfl 14 (by decide),
    empty rfl, words (by decide)⟩
  have shaded := (dark fun i _ => at_kBlackFrame i).1 13 (by decide)
  have share : LedZone.share ⟨10, 5, .centerOut⟩
      (LedZone.lit ⟨10, 5, .centerOut⟩ (.of 1 2)) 13 = 3 / 4 := by
    norm_num [LedZone.share, LedZone.lit, FillFraction.of, clampShare]
  rwa [share] at shaded

end AccessoryController.LocalArgb
