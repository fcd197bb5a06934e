import AccessoryController.LocalArgb.LedZone

/-!
# The pixels of a zone

Every pixel of a zone has a place in the fill order of its run, which decides what it takes from
the fill: the whole colour, the remainder of it, or nothing. No pixel outside the zone changes.

## Main definitions

* `PixelFrame.at`: the colour at an index
* `shadeOver`: a pixel of a run, over the colour that it had
* `LedZone.place`: the run of a pixel and its place in it

## Main results

* `at_lightRun`: the pixels of a run
* `at_fillZone`: the pixels of a zone and the ones outside
-/

namespace AccessoryController.LocalArgb

/-! ### Pixels -/

/-- The colour at an index; there is none past the buffer. -/
def PixelFrame.at (frame : PixelFrame) (index : ℕ) : Rgb := frame[index]?.getD kBlack

variable {amount origin unit capacity : ℕ} (frame : PixelFrame)

theorem at_put (index i : ℕ) (color : Rgb) :
    (frame.put index color).at i =
      if i = index ∧ index < kMaxLedCount then color else frame.at i := by
  unfold PixelFrame.at PixelFrame.put
  rw [Vector.getElem?_setIfInBounds]
  by_cases same : index = i
  · subst same
    by_cases inside : index < kMaxLedCount
    · simp [inside]
    · simp [inside]
  · rw [if_neg same, if_neg fun both => same both.1.symm]

theorem at_kBlackFrame (i : ℕ) : kBlackFrame.at i = kBlack := by
  unfold PixelFrame.at kBlackFrame
  by_cases inside : i < kMaxLedCount
  · simp [inside]
  · rw [Vector.getElem?_eq_none (Nat.le_of_not_lt inside)]
    rfl

theorem frame_ext {frame frame' : PixelFrame} (same : ∀ i, frame.at i = frame'.at i) :
    frame = frame' := by
  refine Vector.ext fun i inside => ?_
  have := same i
  unfold PixelFrame.at at this
  rwa [Vector.getElem?_eq_getElem inside, Vector.getElem?_eq_getElem inside, Option.getD_some,
    Option.getD_some] at this

/-- The pixels that a run of writes visits. -/
theorem at_paintRun (count : ℕ) (position : ℕ → ℕ) (color : Rgb) (i : ℕ) :
    (paintRun frame count position color).at i =
      if (∃ k < count, position k = i) ∧ i < kMaxLedCount then color else frame.at i := by
  unfold paintRun
  induction count with
  | zero => simp
  | succ count ih =>
    rw [List.range_succ, List.foldl_append, List.foldl_cons, List.foldl_nil, at_put, ih]
    by_cases last : i = position count ∧ position count < kMaxLedCount
    · have visited : (∃ k < count + 1, position k = i) ∧ i < kMaxLedCount :=
        ⟨⟨count, Nat.lt_succ_self count, last.1.symm⟩, last.1 ▸ last.2⟩
      rw [if_pos last, if_pos visited]
    · have earlier : ((∃ k < count + 1, position k = i) ∧ i < kMaxLedCount) ↔
          (∃ k < count, position k = i) ∧ i < kMaxLedCount := by
        constructor
        · rintro ⟨⟨k, below, rfl⟩, inside⟩
          rcases Nat.lt_succ_iff_lt_or_eq.mp below with lt | rfl
          · exact ⟨⟨k, lt, rfl⟩, inside⟩
          · exact absurd ⟨rfl, inside⟩ last
        · rintro ⟨⟨k, below, rfl⟩, inside⟩
          exact ⟨⟨k, Nat.lt_succ_of_lt below, rfl⟩, inside⟩
      rw [if_neg last]
      simp only [earlier]

/-! ### Runs -/

/-- The pixel at place `k` of a run of `amount / unit` pixels, over the colour `below`: the whole
colour, the remainder of it, or what was there. -/
def shadeOver (color : Rgb) (amount unit k : ℕ) (below : Rgb) : Rgb :=
  if k < amount / unit then color
  else if k = amount / unit ∧ scale color (amount % unit) unit ≠ kBlack then
    scale color (amount % unit) unit
  else below

/-- A run that stays inside the frame. -/
structure Run.Fits (run : Run) : Prop where
  inside : ∀ k < run.capacity, run.pixel k < kMaxLedCount
  backward : run.step = .backward → run.capacity ≤ run.origin + 1

theorem Run.Fits.pixel_inj {run : Run} (fits : run.Fits) {k k' : ℕ} (hk : k < run.capacity)
    (hk' : k' < run.capacity) (same : run.pixel k = run.pixel k') : k = k' := by
  unfold Run.pixel at same
  cases step : run.step with
  | forward =>
    rw [if_pos step, if_pos step] at same
    omega
  | backward =>
    have := fits.backward step
    have notForward : run.step ≠ .forward := by rw [step]; decide
    rw [if_neg notForward, if_neg notForward] at same
    omega

theorem scale_zero (color : Rgb) (unit : ℕ) : scale color 0 unit = kBlack := by
  simp [scale, scaleChannel, kBlack]

theorem at_writePixel (index i : ℕ) (color : Rgb) :
    (writePixel frame index color).at i =
      if i = index ∧ index < kMaxLedCount ∧ color ≠ kBlack then color else frame.at i := by
  unfold writePixel
  by_cases black : color = kBlack
  · simp [black]
  · simp [black, at_put]

/-- A lit run, by the places of its pixels. The partial pixel is the one behind the whole ones, if
the run has room for it. -/
theorem at_lightRun_places {run : Run} (fits : run.Fits) (color : Rgb) (i : ℕ) :
    (lightRun frame run color).at i =
      if ∃ k < run.capacity, k < run.amount / run.unit ∧ run.pixel k = i then color
      else if (∃ k < run.capacity, k = run.amount / run.unit ∧ run.pixel k = i) ∧
          scale color (run.amount % run.unit) run.unit ≠ kBlack then
        scale color (run.amount % run.unit) run.unit
      else frame.at i := by
  unfold lightRun
  by_cases room : run.amount / run.unit < run.capacity
  · have painted : ((∃ k < run.amount / run.unit, run.pixel k = i) ∧ i < kMaxLedCount) ↔
        ∃ k < run.capacity, k < run.amount / run.unit ∧ run.pixel k = i := by
      constructor
      · rintro ⟨⟨k, below, same⟩, -⟩
        exact ⟨k, Nat.lt_trans below room, below, same⟩
      · rintro ⟨k, within, below, same⟩
        exact ⟨⟨k, below, same⟩, same ▸ fits.inside k within⟩
    have edge : (∃ k < run.capacity, k = run.amount / run.unit ∧ run.pixel k = i) ↔
        i = run.pixel (run.amount / run.unit) :=
      ⟨fun ⟨_, _, at_edge, same⟩ => at_edge ▸ same.symm, fun same => ⟨_, room, rfl, same.symm⟩⟩
    simp only [room, if_true, and_true]
    by_cases exact : run.amount % run.unit = 0
    · rw [if_neg (not_not.mpr exact), at_paintRun]
      simp only [painted, exact, scale_zero, ne_eq, not_true_eq_false, and_false, if_false]
    · have inside := fits.inside _ room
      rw [if_pos exact, at_writePixel, at_paintRun]
      simp only [painted, edge, inside, true_and]
      by_cases here : i = run.pixel (run.amount / run.unit)
      · have unlit : ¬ ∃ k < run.capacity, k < run.amount / run.unit ∧ run.pixel k = i := by
          rintro ⟨k, within, below, same⟩
          exact absurd (fits.pixel_inj within room (same.trans here)) (Nat.ne_of_lt below)
        rw [if_neg unlit, if_neg unlit]
      · simp only [here, false_and, if_false]
  · -- The whole run is lit, and there is no place for a partial pixel.
    have painted : ((∃ k < run.capacity, run.pixel k = i) ∧ i < kMaxLedCount) ↔
        ∃ k < run.capacity, k < run.amount / run.unit ∧ run.pixel k = i := by
      constructor
      · rintro ⟨⟨k, within, same⟩, -⟩
        exact ⟨k, within, by omega, same⟩
      · rintro ⟨k, within, -, same⟩
        exact ⟨⟨k, within, same⟩, same ▸ fits.inside k within⟩
    have noEdge : ¬ ((∃ k < run.capacity, k = run.amount / run.unit ∧ run.pixel k = i) ∧
        scale color (run.amount % run.unit) run.unit ≠ kBlack) := by
      rintro ⟨⟨k, within, at_edge, -⟩, -⟩
      omega
    simp only [room, if_false, Nat.lt_irrefl, and_false]
    rw [at_paintRun, if_neg noEdge]
    simp only [painted]

/-- **The pixels of a run**, and that no others change. -/
theorem at_lightRun {run : Run} (fits : run.Fits) (color : Rgb) :
    (∀ k < run.capacity, (lightRun frame run color).at (run.pixel k) =
      shadeOver color run.amount run.unit k (frame.at (run.pixel k))) ∧
      ∀ i, (∀ k < run.capacity, run.pixel k ≠ i) →
        (lightRun frame run color).at i = frame.at i := by
  constructor
  · intro k within
    rw [at_lightRun_places frame fits, shadeOver]
    have lit : (∃ k' < run.capacity, k' < run.amount / run.unit ∧ run.pixel k' = run.pixel k) ↔
        k < run.amount / run.unit :=
      ⟨fun ⟨_, within', below, same⟩ => fits.pixel_inj within' within same ▸ below,
        fun below => ⟨k, within, below, rfl⟩⟩
    have edge : (∃ k' < run.capacity, k' = run.amount / run.unit ∧ run.pixel k' = run.pixel k) ↔
        k = run.amount / run.unit :=
      ⟨fun ⟨_, within', at_edge, same⟩ => fits.pixel_inj within' within same ▸ at_edge,
        fun at_edge => ⟨k, within, at_edge, rfl⟩⟩
    simp only [lit, edge]
  · intro i outside
    rw [at_lightRun_places frame fits, if_neg fun ⟨k, within, _, same⟩ => outside k within same,
      if_neg fun ⟨⟨k, within, _, same⟩, _⟩ => outside k within same]

/-! ### Zones -/

/-- The pixels of a zone. -/
def LedZone.Covers (zone : LedZone) (i : ℕ) : Prop :=
  zone.start ≤ i ∧ i < zone.start + zone.length

instance (zone : LedZone) (i : ℕ) : Decidable (zone.Covers i) :=
  inferInstanceAs (Decidable (_ ∧ _))

/-- The amount and the unit of the run that a pixel of a zone belongs to, and the pixel's place in
it. The sides of a centre-out zone share what its single centre pixel leaves. -/
def LedZone.place (zone : LedZone) (litAmount unit i : ℕ) : ℕ × ℕ × ℕ :=
  match zone.direction with
  | .startToEnd | .unknown _ => (litAmount, unit, i - zone.start)
  | .endToStart => (litAmount, unit, zone.start + zone.length - 1 - i)
  | .centerOut =>
    let centre := zone.start + zone.length / 2
    if zone.length % 2 ≠ 0 then
      if i = centre then (litAmount, unit, 0)
      else (litAmount - unit, 2 * unit, if i < centre then centre - 1 - i else i - (centre + 1))
    else (litAmount, 2 * unit, if i < centre then centre - 1 - i else i - centre)

theorem validateZone_iff {zone : LedZone} {pixelCount : ℕ} :
    validateZone zone pixelCount = .valid ↔ isKnownDirection zone.direction = true ∧
      0 < zone.length ∧ pixelCount ≤ kMaxLedCount ∧ zone.start + zone.length ≤ pixelCount := by
  unfold validateZone
  cases isKnownDirection zone.direction with
  | false => simp
  | true => ?_
  rw [if_neg (by decide), eq_self, true_and]
  by_cases empty : zone.length = 0
  · simp [empty]
  · rw [if_neg empty]
    split_ifs with outside
    · refine iff_of_false (by decide) ?_
      omega
    · refine iff_of_true rfl ?_
      omega

theorem Run.fits_forward (inside : origin + capacity ≤ kMaxLedCount) :
    Run.Fits ⟨origin, .forward, capacity, amount, unit⟩ := by
  refine ⟨fun k within => ?_, fun step => nomatch step⟩
  simp only [Run.pixel, if_true]
  simp only at within
  omega

theorem Run.fits_backward (inside : origin < kMaxLedCount) (room : capacity ≤ origin + 1) :
    Run.Fits ⟨origin, .backward, capacity, amount, unit⟩ := by
  refine ⟨fun k within => ?_, fun _ => room⟩
  simp only [Run.pixel, reduceCtorEq, if_false]
  omega

/-- The pixels that a forward run lights. -/
theorem at_forward (inside : origin + capacity ≤ kMaxLedCount) (color : Rgb) (i : ℕ) :
    (lightRun frame ⟨origin, .forward, capacity, amount, unit⟩ color).at i =
      if origin ≤ i ∧ i < origin + capacity then
        shadeOver color amount unit (i - origin) (frame.at i) else frame.at i := by
  obtain ⟨run, rest⟩ := at_lightRun frame (Run.fits_forward inside) color
  by_cases covered : origin ≤ i ∧ i < origin + capacity
  · obtain ⟨k, rfl⟩ := Nat.exists_eq_add_of_le covered.1
    rw [if_pos covered, Nat.add_sub_cancel_left]
    exact run k (by simp only; omega)
  · rw [if_neg covered]
    refine rest i fun k within => ?_
    simp only [Run.pixel, if_true]
    simp only at within
    omega

/-- The pixels that a backward run lights. -/
theorem at_backward (inside : origin < kMaxLedCount) (room : capacity ≤ origin + 1) (color : Rgb)
    (i : ℕ) :
    (lightRun frame ⟨origin, .backward, capacity, amount, unit⟩ color).at i =
      if origin < i + capacity ∧ i ≤ origin then
        shadeOver color amount unit (origin - i) (frame.at i) else frame.at i := by
  obtain ⟨run, rest⟩ := at_lightRun frame (Run.fits_backward inside room) color
  by_cases covered : origin < i + capacity ∧ i ≤ origin
  · have place := run (origin - i) (by simp only; omega)
    have pixel : Run.pixel ⟨origin, .backward, capacity, amount, unit⟩ (origin - i) = i := by
      simp only [Run.pixel, reduceCtorEq, if_false]
      omega
    rw [pixel] at place
    rw [if_pos covered, place]
  · rw [if_neg covered]
    refine rest i fun k within => ?_
    simp only [Run.pixel, reduceCtorEq, if_false]
    simp only at within
    omega

/-- A side without light, or without pixels, is drawn as an empty run. -/
theorem shadeOver_zero (color : Rgb) (unit k : ℕ) (below : Rgb) :
    shadeOver color 0 unit k below = below := by
  unfold shadeOver
  rw [Nat.zero_div, Nat.zero_mod, scale_zero]
  simp

/-- The centre pixel of an odd zone is a run of one pixel. -/
theorem at_centre {centre : ℕ} (inside : centre < kMaxLedCount) {litAmount : ℕ}
    (positive : 0 < unit) (color : Rgb) (i : ℕ) :
    (if unit ≤ litAmount then frame.put centre color
      else if litAmount ≠ 0 then writePixel frame centre (scale color litAmount unit)
      else frame).at i =
      if i = centre then shadeOver color litAmount unit 0 (frame.at i) else frame.at i := by
  unfold shadeOver
  by_cases whole : unit ≤ litAmount
  · have lit : 0 < litAmount / unit := Nat.div_pos whole positive
    rw [if_pos whole, at_put]
    simp only [inside, and_true, lit, if_true]
  · have unlit : litAmount / unit = 0 := Nat.div_eq_of_lt (Nat.lt_of_not_le whole)
    have rest : litAmount % unit = litAmount := Nat.mod_eq_of_lt (Nat.lt_of_not_le whole)
    rw [if_neg whole, unlit, rest]
    by_cases none : litAmount = 0
    · simp [none, scale_zero]
    · rw [if_pos none, at_writePixel]
      by_cases here : i = centre <;> simp [here, inside]

/-- The two sides of a centre grow outward with the same amount. -/
theorem at_sides {half centre rightOrigin : ℕ} (left : half ≤ centre) (order : centre ≤ rightOrigin)
    (right : rightOrigin + half ≤ kMaxLedCount) (amount unit : ℕ) (color : Rgb) (i : ℕ) :
    (if half = 0 ∨ amount = 0 then frame
      else lightRun (lightRun frame ⟨centre - 1, .backward, half, amount, unit⟩ color)
        ⟨rightOrigin, .forward, half, amount, unit⟩ color).at i =
      if centre ≤ i + half ∧ i < centre then
        shadeOver color amount unit (centre - 1 - i) (frame.at i)
      else if rightOrigin ≤ i ∧ i < rightOrigin + half then
        shadeOver color amount unit (i - rightOrigin) (frame.at i)
      else frame.at i := by
  by_cases dark : half = 0 ∨ amount = 0
  · rw [if_pos dark]
    rcases dark with none | none
    · rw [if_neg (by omega), if_neg (by omega)]
    · simp only [none, shadeOver_zero, ite_self]
  · rw [if_neg dark, at_forward _ right, at_backward _ (by omega) (by omega)]
    have leftSide : centre - 1 < i + half ∧ i ≤ centre - 1 ↔ centre ≤ i + half ∧ i < centre := by
      omega
    simp only [leftSide]
    by_cases onLeft : centre ≤ i + half ∧ i < centre
    · rw [if_neg (by omega), if_pos onLeft, if_pos onLeft]
    · rw [if_neg onLeft, if_neg onLeft]

/-- The pixels of a centre-out zone: the single centre pixel of an odd one comes first. -/
theorem at_lightCenterOut {zone : LedZone} (inside : zone.start + zone.length ≤ kMaxLedCount)
    {litAmount : ℕ} (positive : 0 < unit) (direction : zone.direction = .centerOut) (color : Rgb)
    (i : ℕ) :
    (lightCenterOut frame zone litAmount unit color).at i =
      if zone.Covers i then
        shadeOver color (zone.place litAmount unit i).1 (zone.place litAmount unit i).2.1
          (zone.place litAmount unit i).2.2 (frame.at i)
      else frame.at i := by
  unfold lightCenterOut LedZone.place
  rw [direction]
  by_cases odd : zone.length % 2 ≠ 0
  · simp only [if_pos odd]
    rw [at_sides _ (by omega) (by omega) (by omega), at_centre frame (by omega) positive]
    rcases Nat.lt_trichotomy i (zone.start + zone.length / 2) with left | rfl | right
    · have leftSide : zone.start + zone.length / 2 ≤ i + zone.length / 2 ↔ zone.Covers i := by
        rw [LedZone.Covers]
        omega
      have notRight : ¬ (zone.start + zone.length / 2 + 1 ≤ i ∧
          i < zone.start + zone.length / 2 + 1 + zone.length / 2) := by omega
      simp only [leftSide, notRight, Nat.ne_of_lt left, left, and_true, if_true, if_false]
    · -- The centre pixel belongs to neither side.
      have covered : zone.Covers (zone.start + zone.length / 2) := by
        rw [LedZone.Covers]
        omega
      rw [if_neg (by omega), if_neg (by omega), if_pos rfl, if_pos covered]
      simp only [if_true]
    · have rightSide : zone.start + zone.length / 2 + 1 ≤ i ∧
          i < zone.start + zone.length / 2 + 1 + zone.length / 2 ↔ zone.Covers i := by
        rw [LedZone.Covers]
        omega
      have notLeft : ¬ i < zone.start + zone.length / 2 := by omega
      simp only [rightSide, notLeft, Nat.ne_of_gt right, and_false, if_false]
  · simp only [if_neg odd]
    rw [at_sides _ (by omega) (by omega) (by omega)]
    by_cases left : i < zone.start + zone.length / 2
    · have leftSide : zone.start + zone.length / 2 ≤ i + zone.length / 2 ↔ zone.Covers i := by
        rw [LedZone.Covers]
        omega
      have notRight : ¬ (zone.start + zone.length / 2 ≤ i ∧
          i < zone.start + zone.length / 2 + zone.length / 2) := by omega
      simp only [leftSide, notRight, left, and_true, if_true, if_false]
    · have rightSide : zone.start + zone.length / 2 ≤ i ∧
          i < zone.start + zone.length / 2 + zone.length / 2 ↔ zone.Covers i := by
        rw [LedZone.Covers]
        omega
      simp only [rightSide, left, and_false, if_false]

/-- **The pixels of a zone** and the ones outside. -/
theorem at_fillZone {zone : LedZone} (valid : validateZone zone kMaxLedCount = .valid)
    (fraction : FillFraction) (color : Rgb) (i : ℕ) :
    (fillZone frame zone fraction color).1.at i =
      if zone.Covers i then
        shadeOver color
          (zone.place (zone.length * fraction.numerator) fraction.denominator i).1
          (zone.place (zone.length * fraction.numerator) fraction.denominator i).2.1
          (zone.place (zone.length * fraction.numerator) fraction.denominator i).2.2 (frame.at i)
      else frame.at i := by
  obtain ⟨known, positive, -, inside⟩ := validateZone_iff.mp valid
  unfold fillZone
  simp only [valid, ne_eq, not_true_eq_false, if_false]
  generalize zone.length * fraction.numerator = litAmount
  cases direction : zone.direction with
  | startToEnd =>
    simp only [LedZone.place, direction]
    exact at_forward frame inside color i
  | endToStart =>
    have last : zone.start + zone.length - 1 < kMaxLedCount := by omega
    have covered : zone.start + zone.length - 1 < i + zone.length ∧
        i ≤ zone.start + zone.length - 1 ↔ zone.Covers i := by
      rw [LedZone.Covers]
      omega
    simp only [LedZone.place, direction]
    rw [at_backward frame last (by omega)]
    simp only [covered]
  | centerOut => exact at_lightCenterOut frame inside fraction.positive direction color i
  | unknown _ =>
    rw [direction] at known
    cases known

end AccessoryController.LocalArgb
