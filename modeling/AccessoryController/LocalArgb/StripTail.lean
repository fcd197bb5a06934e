import AccessoryController.Library.Machine
import AccessoryController.LocalArgb.Renderer

/-!
# The pixels past the active length

A lit frame is written over the active length and a black frame over the whole buffer. The strip
keeps the last value written to each pixel, so what a run leaves past the active length is decided
by the lengths of all its accepted writes together.

## Main definitions

* `Strip`, `Offer.show`: the pixels of the strip and what an offer leaves on them
* `Offer.Sized count`: a black offer covers the buffer and a lit one `count` pixels
* `offered`: the offers of a run

## Main results

* `sized_step`: one call offers sized frames and leaves the active length alone
* `strip_tail_dark`: past the active length the strip stays dark
-/

namespace AccessoryController.LocalArgb

open RendererController

/-- The physical strip: each pixel with the last value written to it. -/
abbrev Strip := Fin kMaxLedCount → Rgb

/-- The strip after an offer. A refused offer changes no pixel, and an accepted one the pixels
that its write covers. -/
def Offer.show (offer : Offer) (strip : Strip) : Strip := fun i =>
  if offer.accepted = true ∧ i < offer.length then offer.frame[i] else strip i

/-- The strip after a list of offers. -/
def shown (strip : Strip) (offers : List Offer) : Strip :=
  offers.foldl (fun strip offer => offer.show strip) strip

/-- Every pixel from `count` on is black. -/
def Strip.DarkFrom (count : ℕ) (strip : Strip) : Prop := ∀ i, count ≤ i.val → strip i = kBlack

/-- A black offer covers the whole buffer, and a lit one the first `count` pixels. -/
def Offer.Sized (count : ℕ) (offer : Offer) : Prop :=
  offer.length = if offer.frame = kBlackFrame then kMaxLedCount else count

/-- The frames offered in a run, in order. -/
def offered (trace : List ((RendererCall × SinkAnswers) × RendererAnswer)) : List Offer :=
  trace.flatMap fun entry => entry.2.offers

/-! ### What offers leave on the strip -/

theorem shown_snoc (strip : Strip) (offers : List Offer) (offer : Offer) :
    shown strip (offers ++ [offer]) = offer.show (shown strip offers) := by
  simp [shown]

theorem kBlackFrame_get (i : Fin kMaxLedCount) : kBlackFrame[i] = kBlack := by
  simp [kBlackFrame]

variable {count : ℕ} (r : RendererController)

/-- A sized black offer makes every pixel black. -/
theorem Offer.Sized.show_black {offer : Offer} (sized : offer.Sized count)
    (black : offer.frame = kBlackFrame) (accepted : offer.accepted = true) (strip : Strip) :
    offer.show strip = fun _ => kBlack := by
  ext1 i
  have covered : i < offer.length := by
    rw [sized, if_pos black]
    exact i.isLt
  rw [Offer.show, if_pos ⟨accepted, covered⟩, black, kBlackFrame_get]

/-- No sized offer lights a pixel past the active length. -/
theorem Offer.Sized.show_dark {offer : Offer} (sized : offer.Sized count) {strip : Strip}
    (dark : strip.DarkFrom count) : (offer.show strip).DarkFrom count := by
  intro i hi
  by_cases black : offer.frame = kBlackFrame
  · by_cases accepted : offer.accepted = true
    · rw [sized.show_black black accepted]
    · rw [Offer.show, if_neg fun h => accepted h.1]
      exact dark i hi
  · -- a lit frame ends before the pixel
    have past : ¬ i.val < offer.length := by
      rw [sized, if_neg black]
      omega
    rw [Offer.show, if_neg fun h => past h.2]
    exact dark i hi

/-- Once a black frame was accepted, sized offers leave the strip dark past the active length. -/
theorem dark_shown (strip : Strip) {offers : List Offer}
    (sized : ∀ offer ∈ offers, offer.Sized count)
    (blackened : ∃ offer ∈ offers, offer.accepted = true ∧ offer.frame = kBlackFrame) :
    (shown strip offers).DarkFrom count := by
  induction offers using List.reverseRecOn with
  | nil => simp at blackened
  | append_singleton offers last ih =>
    rw [shown_snoc]
    have hlast : last.Sized count := sized last (by simp)
    obtain ⟨offer, hmem, accepted, black⟩ := blackened
    rcases List.mem_append.mp hmem with earlier | hsame
    · refine hlast.show_dark (ih (fun o ho => sized o (List.mem_append_left _ ho)) ?_)
      exact ⟨offer, earlier, accepted, black⟩
    · obtain rfl := List.mem_singleton.mp hsame
      rw [hlast.show_black black accepted]
      exact fun _ _ => rfl

/-- A sized black offer reaches every pixel that a sized offer reaches. -/
theorem Offer.Sized.covers {offer : Offer} (sized : offer.Sized count)
    (black : offer.frame = kBlackFrame) (i : Fin kMaxLedCount) : i < offer.length := by
  rw [sized, if_pos black]
  exact i.isLt

/-! ### What the renderer offers -/

/-- A write offers sized frames and leaves the active length alone. -/
theorem sized_writeDesired (sink : SinkAnswers) (desired : PixelFrame) :
    (r.writeDesired sink desired).renderer.pixelCount = r.pixelCount ∧
      ∀ offer ∈ (r.writeDesired sink desired).offers, offer.Sized r.pixelCount := by
  have black : ∀ accepted faulted,
      (⟨kBlackFrame, kMaxLedCount, accepted, faulted⟩ : Offer).Sized r.pixelCount :=
    fun _ _ => (if_pos rfl).symm
  unfold writeDesired
  split
  · exact ⟨rfl, by simp⟩
  dsimp only
  split
  · refine ⟨rfl, fun offer hoffer => ?_⟩
    rw [List.mem_singleton.mp hoffer]
    rfl
  · split
    · refine ⟨rfl, fun offer hoffer => ?_⟩
      rw [List.mem_singleton.mp hoffer]
      exact (if_pos ‹desired = kBlackFrame›).symm
    · -- a refused lit frame is followed by black over the whole buffer
      have both : ∀ accepted accepted', ∀ offer ∈
          [(⟨desired, r.pixelCount, accepted, r.faulted⟩ : Offer),
            ⟨kBlackFrame, kMaxLedCount, accepted', r.refused.faulted⟩],
          offer.Sized r.pixelCount := by
        intro accepted accepted' offer hoffer
        rcases List.mem_pair.mp hoffer with rfl | rfl
        · exact (if_neg ‹desired ≠ kBlackFrame›).symm
        · exact black _ _
      split <;> exact ⟨rfl, both _ _⟩

/-- **One call** offers sized frames and leaves the active length alone. -/
theorem sized_step (input : RendererCall × SinkAnswers) :
    (r.step input).1.pixelCount = r.pixelCount ∧
      ∀ offer ∈ (r.step input).2.offers, offer.Sized r.pixelCount := by
  obtain ⟨call, sink⟩ := input
  cases call with
  | start => exact sized_writeDesired _ sink _
  | apply command nowUs epoch => exact sized_writeDesired _ sink _
  | tick nowUs => exact sized_writeDesired _ sink _

/-- Every run offers sized frames. -/
theorem sized_offered (inputs : List (RendererCall × SinkAnswers)) :
    (Machine.after step r inputs).pixelCount = r.pixelCount ∧
      ∀ offer ∈ offered (Machine.trace step r inputs),
        offer.Sized r.pixelCount := by
  refine Machine.invariant (P := fun (s : RendererController) trace => s.pixelCount = r.pixelCount ∧
    ∀ offer ∈ offered trace, offer.Sized r.pixelCount) ⟨rfl, by simp [offered]⟩ ?_ inputs
  rintro s trace input ⟨same, sized⟩
  obtain ⟨kept, fresh⟩ := sized_step s input
  refine ⟨kept.trans same, fun offer hoffer => ?_⟩
  rw [offered, List.flatMap_append, List.mem_append] at hoffer
  rcases hoffer with earlier | new
  · exact sized offer earlier
  · exact same ▸ fresh offer (by simpa using new)

/-- **Past the active length the strip stays dark.** In every run of a renderer, from any strip
and with any answers of the sink, after each offer that an accepted black one precedes or is,
every pixel from the active length on is black. Every black frame that is offered covers each
pixel that an offer before it covers, and makes the whole strip black when it is accepted. -/
theorem strip_tail_dark (r : RendererController) (strip : Strip)
    (inputs : List (RendererCall × SinkAnswers)) (before after : List Offer)
    (split : offered (Machine.trace step r inputs) = before ++ after) :
    ((∃ offer ∈ before, offer.accepted = true ∧ offer.frame = kBlackFrame) →
      ∀ i : Fin kMaxLedCount,
        (Machine.after step r inputs).pixelCount ≤ i.val →
          shown strip before i = kBlack) ∧
    (∀ offer rest, after = offer :: rest → offer.frame = kBlackFrame →
      (∀ earlier ∈ before, ∀ i : Fin kMaxLedCount, i < earlier.length → i < offer.length) ∧
      (offer.accepted = true → shown strip (before ++ [offer]) = fun _ => kBlack)) := by
  obtain ⟨same, sized⟩ := sized_offered r inputs
  rw [split] at sized
  refine ⟨fun blackened => ?_, ?_⟩
  · rw [same]
    exact dark_shown strip (fun o ho => sized o (List.mem_append_left _ ho)) blackened
  · rintro offer rest rfl black
    have hoffer : offer.Sized r.pixelCount := sized offer (by simp)
    refine ⟨fun _ _ i _ => hoffer.covers black i, fun accepted => ?_⟩
    rw [shown_snoc, hoffer.show_black black accepted]

/-- A start that the sink accepts offers one black frame. -/
theorem offers_start :
    (r.start fun _ => true).offers = [⟨kBlackFrame, kMaxLedCount, true, false⟩] := by
  unfold start writeDesired
  rw [if_neg (fun seen => Bool.false_ne_true seen.1), if_pos rfl]
  rw [if_pos rfl]

/-- A start that the sink accepts, and a white command. -/
def whiteCalls : List (RendererCall × SinkAnswers) :=
  [(.start, fun _ => true),
    (.apply { color := ⟨40, 40, 40⟩, actionable := true, validUntilUs := 100 } 10 0, fun _ => true)]

/-- A white command leaves a pixel past the hundred active ones dark, whatever it showed before
the start. -/
theorem strip_tail_dark_white :
    shown (fun _ => ⟨9, 9, 9⟩) (offered (Machine.trace step {} whiteCalls))
      ⟨150, by decide⟩ = kBlack := by
  refine (strip_tail_dark {} _ whiteCalls _ [] (List.append_nil _).symm).1 ?_ ⟨150, by decide⟩ ?_
  · refine ⟨⟨kBlackFrame, kMaxLedCount, true, false⟩, ?_, rfl, rfl⟩
    have first : (⟨kBlackFrame, kMaxLedCount, true, false⟩ : Offer) ∈
        (start {} fun _ => true).offers := by
      rw [offers_start]
      exact List.mem_singleton_self _
    exact List.mem_append_left _ first
  · rw [(sized_offered {} whiteCalls).1]
    decide

end AccessoryController.LocalArgb
