import AccessoryController.Library.History
import AccessoryController.Library.Machine
import AccessoryController.LocalArgb.Renderer

/-!
# The renderer fails dark

The calls and the offers of a run form one history. A lit frame is offered only under a held
command that is actionable and not past its deadline, by a renderer without a fault, and after a
refused write only once an apply has followed an accepted black frame.

## Main definitions

* `Event`, `events`: the history of a run
* `Allowed h e`: what the history before an offer must say for a lit offer
* `Coupled r h`: the renderer's state and its history agree

## Main results

* `coupled_writeDesired`: a write keeps the state and the history in agreement
* `fails_dark`: every run fails dark, and `blackWritten` says when the strip is black
-/

namespace AccessoryController.LocalArgb

open VehicleCore History

/-- A call that reaches the renderer, or a frame that it offers to the sink. -/
inductive Event
  | started
  | applied (command : LightingCommand) (nowUs : MonotonicTimestamp)
  | ticked (nowUs : MonotonicTimestamp)
  | offered (offer : Offer)

def RendererCall.event : RendererCall → Event
  | .start => .started
  | .apply command nowUs _ => .applied command nowUs
  | .tick nowUs => .ticked nowUs

/-- The calls of a run, each followed by the frames it offered. -/
def events (trace : List ((RendererCall × SinkAnswers) × RendererAnswer)) : List Event :=
  trace.flatMap fun entry => entry.1.1.event :: entry.2.offers.map .offered

/-- The command applied last, unless the renderer was started since. -/
def heldCommand (h : List Event) : Option LightingCommand :=
  h.foldl (fun held event =>
    match event with
    | .started => none
    | .applied command _ => some command
    | _ => held) none

/-- The time passed to the last call. -/
def callTime (h : List Event) : Option MonotonicTimestamp :=
  h.foldl (fun time event =>
    match event with
    | .started => none
    | .applied _ nowUs => some nowUs
    | .ticked nowUs => some nowUs
    | .offered _ => time) none

/-- The frames offered since the last start. -/
def offersSinceStart (h : List Event) : List Offer :=
  h.foldl (fun offers event =>
    match event with
    | .started => []
    | .offered offer => offers ++ [offer]
    | _ => offers) []

/-- The last write since the start, if it was accepted. -/
def lastAccepted (h : List Event) : Option PixelFrame :=
  (offersSinceStart h).getLast?.bind fun offer =>
    if offer.accepted then some offer.frame else none

def Event.refused : Event → Prop
  | .offered offer => offer.accepted = false
  | _ => False

/-- A black frame was accepted. -/
def Blackened (h : List Event) : Prop :=
  ∃ offer, .offered offer ∈ h ∧ offer.accepted = true ∧ offer.frame = kBlackFrame

/-- An apply followed an accepted black frame. -/
def Recovered (h : List Event) : Prop :=
  ∃ before command nowUs after, h = before ++ .applied command nowUs :: after ∧ Blackened before

/-- A lit frame may be offered: the held command is actionable and not past its deadline, the
renderer is not faulted, and every refused write has been recovered from. -/
def Allowed (h : List Event) : Event → Prop
  | .offered offer => offer.frame ≠ kBlackFrame →
      (∃ command nowUs, heldCommand h = some command ∧ callTime h = some nowUs ∧
        command.actionable = true ∧ nowUs ≤ command.validUntilUs ∧ offer.faulted = false) ∧
      Since Event.refused Recovered h
  | _ => True

/-! ### Histories extended by one event -/

theorem heldCommand_offered (h : List Event) (offer : Offer) :
    heldCommand (h ++ [.offered offer]) = heldCommand h := by
  simp [heldCommand]

theorem lastAccepted_offered (h : List Event) (offer : Offer) :
    lastAccepted (h ++ [.offered offer]) =
      if offer.accepted then some offer.frame else none := by
  simp [lastAccepted, offersSinceStart]

variable {h : List Event} {r : RendererController}

theorem Blackened.append (black : Blackened h) (l : List Event) : Blackened (h ++ l) := by
  obtain ⟨offer, hmem, hoffer⟩ := black
  exact ⟨offer, List.mem_append_left l hmem, hoffer⟩

theorem Recovered.append (recovered : Recovered h) (l : List Event) : Recovered (h ++ l) := by
  obtain ⟨before, command, nowUs, after, rfl, black⟩ := recovered
  exact ⟨before, command, nowUs, after ++ l, by simp, black⟩

/-- An apply recovers from what black was accepted after. -/
theorem Blackened.applied (black : Blackened h) (command : LightingCommand)
    (nowUs : MonotonicTimestamp) : Recovered (h ++ [.applied command nowUs]) :=
  ⟨h, command, nowUs, [], rfl, black⟩

/-- An accepted black frame comes after every refused write. -/
theorem since_blackened {offer : Offer} (accepted : offer.accepted = true)
    (black : offer.frame = kBlackFrame) :
    Since Event.refused Blackened (h ++ [.offered offer]) := by
  refine since_snoc.mpr ⟨fun _ _ after _ _ => ?_, fun refused => ?_⟩
  · exact ⟨offer, by simp, accepted, black⟩
  · simp [Event.refused, accepted] at refused

/-- What has come since the refused writes stays after an event that is no refused write. -/
theorem since_extend {P : List Event → Prop} {e : Event}
    (append : ∀ after, P after → P (after ++ [e])) (quiet : ¬ e.refused)
    (since : Since Event.refused P h) : Since Event.refused P (h ++ [e]) :=
  since_snoc.mpr ⟨since.mono append, fun refused => absurd refused quiet⟩

/-! ### The state and the history -/

/-- The last frame the renderer knows the sink accepted. -/
def RendererController.lastFrame (r : RendererController) : Option PixelFrame :=
  if r.hasLastWritten then some r.lastWritten else none

/-- The renderer's state and its history agree. -/
structure Coupled (r : RendererController) (h : List Event) : Prop where
  lawful : Lawful Allowed h
  held : r.hasCommand = true → heldCommand h = some r.command
  written : lastAccepted h = r.lastFrame
  black : r.lastFrame = some kBlackFrame → Since Event.refused Blackened h
  recovered : r.faulted = false → r.hasCommand = true → Since Event.refused Recovered h

/-- Between two calls, a renderer without fault and without command has written black, unless
nothing has reached it yet. -/
def Rested (r : RendererController) (h : List Event) : Prop :=
  r.faulted = false → r.hasCommand = false → r.lastFrame = some kBlackFrame ∨ h = []

theorem blackWritten_iff (r : RendererController) :
    r.blackWritten = true ↔ r.lastFrame = some kBlackFrame := by
  cases hw : r.hasLastWritten <;>
    simp [RendererController.blackWritten, RendererController.lastFrame, hw]

/-- What a write can do. -/
theorem writeDesired_cases (r : RendererController) (sink : SinkAnswers) (desired : PixelFrame) :
    (r.lastFrame = some desired ∧ r.writeDesired sink desired = ⟨r, true, []⟩) ∨
    (∃ length, r.writeDesired sink desired =
      ⟨r.wrote desired, true, [⟨desired, length, true, r.faulted⟩]⟩) ∨
    (∃ length, r.writeDesired sink desired =
      ⟨r.refused, false, [⟨desired, length, false, r.faulted⟩]⟩) ∨
    (∃ length, r.writeDesired sink desired = ⟨r.refused.wrote kBlackFrame, false,
      [⟨desired, length, false, r.faulted⟩, ⟨kBlackFrame, kMaxLedCount, true, true⟩]⟩) ∨
    (∃ length, r.writeDesired sink desired = ⟨r.refused, false,
      [⟨desired, length, false, r.faulted⟩, ⟨kBlackFrame, kMaxLedCount, false, true⟩]⟩) := by
  unfold RendererController.writeDesired
  by_cases hsame : r.hasLastWritten = true ∧ desired = r.lastWritten
  · refine Or.inl ⟨?_, if_pos hsame⟩
    rw [RendererController.lastFrame, if_pos hsame.1, hsame.2]
  rw [if_neg hsame]
  cases hfirst : sink 0 with
  | true => exact Or.inr (Or.inl ⟨_, rfl⟩)
  | false =>
    by_cases hblack : desired = kBlackFrame
    · exact Or.inr (Or.inr (Or.inl ⟨_, by simp only [if_pos hblack]; rfl⟩))
    · cases hsecond : sink 1 with
      | true =>
        exact Or.inr (Or.inr (Or.inr (Or.inl ⟨_, by simp only [if_neg hblack]; rfl⟩)))
      | false =>
        exact Or.inr (Or.inr (Or.inr (Or.inr ⟨_, by simp only [if_neg hblack]; rfl⟩)))

/-- Without a fault after it, a write has left the desired frame on the strip. -/
theorem lastFrame_writeDesired (r : RendererController) (sink : SinkAnswers)
    (desired : PixelFrame) (unfaulted : (r.writeDesired sink desired).renderer.faulted = false) :
    (r.writeDesired sink desired).renderer.lastFrame = some desired := by
  rcases writeDesired_cases r sink desired with
    ⟨hsame, hw⟩ | ⟨length, hw⟩ | ⟨length, hw⟩ | ⟨length, hw⟩ | ⟨length, hw⟩ <;>
    rw [hw] at unfaulted ⊢
  · exact hsame
  · rfl
  · cases unfaulted
  · cases unfaulted
  · cases unfaulted

theorem hasCommand_writeDesired (r : RendererController) (sink : SinkAnswers)
    (desired : PixelFrame) :
    (r.writeDesired sink desired).renderer.hasCommand = r.hasCommand := by
  rcases writeDesired_cases r sink desired with
    ⟨-, hw⟩ | ⟨length, hw⟩ | ⟨length, hw⟩ | ⟨length, hw⟩ | ⟨length, hw⟩ <;> rw [hw] <;> rfl

/-- A refused write leaves a faulted renderer. -/
theorem Coupled.refused (coupled : Coupled r h) (offer : Offer) (rejected : offer.accepted = false)
    (allowed : Allowed h (.offered offer)) :
    Coupled r.refused (h ++ [.offered offer]) where
  lawful := lawful_snoc.mpr ⟨coupled.lawful, allowed⟩
  held hc := (heldCommand_offered h offer).trans (coupled.held hc)
  written := by
    rw [lastAccepted_offered, rejected]
    rfl
  black hb := by simp [RendererController.lastFrame, RendererController.refused] at hb
  recovered hf := by simp [RendererController.refused] at hf

/-- An accepted write leaves its frame on the strip. -/
theorem Coupled.wrote (coupled : Coupled r h) (offer : Offer) (accepted : offer.accepted = true)
    (allowed : Allowed h (.offered offer)) :
    Coupled (r.wrote offer.frame) (h ++ [.offered offer]) where
  lawful := lawful_snoc.mpr ⟨coupled.lawful, allowed⟩
  held hc := (heldCommand_offered h offer).trans (coupled.held hc)
  written := by
    rw [lastAccepted_offered, accepted]
    rfl
  black hb := by
    have hframe : offer.frame = kBlackFrame := by
      simpa [RendererController.lastFrame, RendererController.wrote] using hb
    exact since_blackened accepted hframe
  recovered hf hc :=
    since_extend (fun after ha => ha.append _) (by simp [Event.refused, accepted])
      (coupled.recovered hf hc)

/-- A black frame is always allowed. -/
theorem allowed_black (h : List Event) {offer : Offer} (black : offer.frame = kBlackFrame) :
    Allowed h (.offered offer) := fun lit => absurd black lit

section

variable (coupled : Coupled r h)
include coupled

/-- **A write** keeps the state and the history in agreement, if a lit frame is allowed. -/
theorem coupled_writeDesired (sink : SinkAnswers) {desired : PixelFrame}
    (allowed : ∀ length accepted,
      Allowed h (.offered ⟨desired, length, accepted, r.faulted⟩)) :
    Coupled (r.writeDesired sink desired).renderer
      (h ++ (r.writeDesired sink desired).offers.map .offered) := by
  have first : ∀ length, Coupled r.refused
      (h ++ [.offered ⟨desired, length, false, r.faulted⟩]) :=
    fun length => coupled.refused _ rfl (allowed length false)
  rcases writeDesired_cases r sink desired with
    ⟨-, hw⟩ | ⟨length, hw⟩ | ⟨length, hw⟩ | ⟨length, hw⟩ | ⟨length, hw⟩ <;> rw [hw]
  · rw [List.map_nil, List.append_nil]
    exact coupled
  · exact coupled.wrote _ rfl (allowed length true)
  · exact first length
  · rw [List.map_cons, List.append_cons]
    exact (first length).wrote ⟨kBlackFrame, kMaxLedCount, true, true⟩ rfl
      (allowed_black _ rfl)
  · rw [List.map_cons, List.append_cons]
    exact (first length).refused ⟨kBlackFrame, kMaxLedCount, false, true⟩ rfl
      (allowed_black _ rfl)

/-! ### The calls -/

/-- A start forgets the command and writes black. -/
theorem coupled_start (sink : SinkAnswers) :
    Coupled (r.start sink).renderer (h ++ .started :: (r.start sink).offers.map .offered) := by
  rw [List.append_cons]
  refine coupled_writeDesired ?_ sink fun _ _ => allowed_black _ rfl
  refine ⟨lawful_snoc.mpr ⟨coupled.lawful, trivial⟩, fun hc => ?_, ?_, fun hb => ?_,
    fun _ hc => ?_⟩
  · cases hc
  · simp [lastAccepted, offersSinceStart, RendererController.lastFrame]
  · simp [RendererController.lastFrame] at hb
  · cases hc

/-- A tick draws only what its command allows at its time. -/
theorem coupled_tick (sink : SinkAnswers) {nowUs : MonotonicTimestamp}
    (time : callTime h = some nowUs) :
    Coupled (r.tick sink nowUs).renderer (h ++ (r.tick sink nowUs).offers.map .offered) := by
  refine coupled_writeDesired (r := { r.settleTransients nowUs with desired := _ })
    ⟨coupled.lawful, coupled.held, coupled.written, coupled.black, coupled.recovered⟩ sink ?_
  intro length accepted
  by_cases shows : (r.settleTransients nowUs).shows nowUs
  · intro _
    obtain ⟨unfaulted, hcommand, actionable, current⟩ := shows
    exact ⟨⟨r.command, nowUs, coupled.held hcommand, time, actionable, current, unfaulted⟩,
      coupled.recovered unfaulted hcommand⟩
  · exact allowed_black _ (if_neg shows)

/-- A fresh command clears the fault only after black was written. -/
theorem coupled_accept (rested : Rested r h) (command : LightingCommand)
    (nowUs : MonotonicTimestamp) (epoch : ℕ) :
    Coupled (r.accept command nowUs epoch) (h ++ [.applied command nowUs]) where
  lawful := lawful_snoc.mpr ⟨coupled.lawful, trivial⟩
  held _ := by simp [heldCommand, RendererController.accept]
  written := by
    have same : lastAccepted (h ++ [.applied command nowUs]) = lastAccepted h := by
      simp [lastAccepted, offersSinceStart]
    rw [same, coupled.written]
    rfl
  black hb := since_extend (fun after ha => ha.append _) (by simp [Event.refused])
    (coupled.black hb)
  recovered hf _ := by
    have black : r.lastFrame = some kBlackFrame →
        Since Event.refused Recovered (h ++ [.applied command nowUs]) := fun hb =>
      since_snoc.mpr ⟨(coupled.black hb).mono fun after ha => ha.applied command nowUs,
        fun hr => hr.elim⟩
    by_cases hold : r.faulted = false
    · cases hc : r.hasCommand with
      | true =>
        exact since_extend (fun after ha => ha.append _) (by simp [Event.refused])
          (coupled.recovered hold hc)
      | false =>
        rcases rested hold hc with hb | rfl
        · exact black hb
        · exact since_snoc.mpr ⟨since_nil _ _, fun hr => hr.elim⟩
    · have hblack : r.blackWritten = true := by
        by_contra hnot
        simp [RendererController.accept, hold, hnot] at hf
      exact black ((blackWritten_iff r).mp hblack)

theorem coupled_ticked (nowUs : MonotonicTimestamp) : Coupled r (h ++ [.ticked nowUs]) where
  lawful := lawful_snoc.mpr ⟨coupled.lawful, trivial⟩
  held hc := by simpa [heldCommand] using coupled.held hc
  written := by simpa [lastAccepted, offersSinceStart] using coupled.written
  black hb := since_extend (fun after ha => ha.append _) (by simp [Event.refused])
    (coupled.black hb)
  recovered hf hc := since_extend (fun after ha => ha.append _) (by simp [Event.refused])
    (coupled.recovered hf hc)

end

/-- A tick without a command writes black. -/
theorem lastFrame_tick (sink : SinkAnswers) (nowUs : MonotonicTimestamp)
    (unfaulted : (r.tick sink nowUs).renderer.faulted = false)
    (idle : (r.tick sink nowUs).renderer.hasCommand = false) :
    (r.tick sink nowUs).renderer.lastFrame = some kBlackFrame := by
  have hidle : r.hasCommand = false := by
    unfold RendererController.tick at idle
    rw [hasCommand_writeDesired] at idle
    exact idle
  have hdark : ¬ (r.settleTransients nowUs).shows nowUs := fun shows => by
    have hcommand : r.hasCommand = true := shows.2.1
    rw [hidle] at hcommand
    cases hcommand
  have htick : r.tick sink nowUs = RendererController.writeDesired
      { r.settleTransients nowUs with desired := kBlackFrame } sink kBlackFrame := by
    simp only [RendererController.tick, if_neg hdark]
  rw [htick] at unfaulted ⊢
  exact lastFrame_writeDesired _ sink _ unfaulted

/-- **One call** keeps the state and the history in agreement. -/
theorem coupled_step (coupled : Coupled r h) (rested : Rested r h)
    (input : RendererCall × SinkAnswers) :
    Coupled (r.step input).1 (h ++ input.1.event :: (r.step input).2.offers.map .offered) ∧
      Rested (r.step input).1 (h ++ input.1.event :: (r.step input).2.offers.map .offered) := by
  obtain ⟨call, sink⟩ := input
  cases call with
  | start =>
    exact ⟨coupled_start coupled sink,
      fun unfaulted _ => Or.inl (lastFrame_writeDesired _ sink _ unfaulted)⟩
  | apply command nowUs epoch =>
    have time : callTime (h ++ [.applied command nowUs]) = some nowUs := by simp [callTime]
    refine ⟨?_, fun unfaulted idle => Or.inl (lastFrame_tick sink nowUs unfaulted idle)⟩
    rw [List.append_cons]
    exact coupled_tick (coupled_accept coupled rested command nowUs epoch) sink time
  | tick nowUs =>
    have time : callTime (h ++ [.ticked nowUs]) = some nowUs := by simp [callTime]
    refine ⟨?_, fun unfaulted idle => Or.inl (lastFrame_tick sink nowUs unfaulted idle)⟩
    rw [List.append_cons]
    exact coupled_tick (coupled_ticked coupled nowUs) sink time

/-! ### Every run -/

/-- A renderer before its first call. -/
def RendererController.fresh (animation : AnimationStrategy) (pixelCount : ℕ) :
    RendererController :=
  (({ animation } : RendererController).configurePixelCount pixelCount).1

theorem coupled_fresh (animation : AnimationStrategy) (pixelCount : ℕ) :
    Coupled (.fresh animation pixelCount) [] := by
  unfold RendererController.fresh RendererController.configurePixelCount
  split <;> exact ⟨lawful_nil _, by simp, rfl, by simp [RendererController.lastFrame],
    fun _ _ => since_nil _ _⟩

theorem coupled_after (animation : AnimationStrategy) (pixelCount : ℕ)
    (inputs : List (RendererCall × SinkAnswers)) :
    Coupled (Machine.after RendererController.step (.fresh animation pixelCount) inputs)
      (events (Machine.trace RendererController.step (.fresh animation pixelCount) inputs)) := by
  refine (Machine.invariant (P := fun r trace => Coupled r (events trace) ∧
    Rested r (events trace)) ⟨coupled_fresh animation pixelCount, fun _ _ => Or.inr rfl⟩ ?_
    inputs).1
  rintro r trace input ⟨coupled, rested⟩
  have extended : events (trace ++ [(input, (r.step input).2)]) =
      events trace ++ input.1.event :: (r.step input).2.offers.map .offered := by
    simp [events]
  rw [extended]
  exact coupled_step coupled rested input

/-- **The renderer fails dark.** In every run, with any answers of the sink: a frame with a pixel
that is not black is offered only while the last command applied since the start is actionable,
the time of the call is not past its deadline and the renderer is not faulted, and only if every
refused write before it has been followed by an accepted black frame and then an apply. After
every run, `blackWritten` holds exactly if the last write since the start was accepted and
black. -/
theorem fails_dark (animation : AnimationStrategy) (pixelCount : ℕ)
    (inputs : List (RendererCall × SinkAnswers)) :
    let r := Machine.after RendererController.step (.fresh animation pixelCount) inputs
    let h := events (Machine.trace RendererController.step (.fresh animation pixelCount) inputs)
    (∀ before offer after, h = before ++ .offered offer :: after →
      (∃ i, ∃ hi : i < kMaxLedCount, offer.frame[i] ≠ kBlack) →
        (∃ command nowUs, heldCommand before = some command ∧ callTime before = some nowUs ∧
          command.actionable = true ∧ nowUs ≤ command.validUntilUs ∧ offer.faulted = false) ∧
        Since Event.refused Recovered before) ∧
    (r.blackWritten = true ↔ ∃ offer, (offersSinceStart h).getLast? = some offer ∧
      offer.accepted = true ∧ offer.frame = kBlackFrame) := by
  intro r h
  have coupled : Coupled r h := coupled_after animation pixelCount inputs
  constructor
  · rintro before offer after hsplit ⟨i, hi, hlit⟩
    refine coupled.lawful before (.offered offer) after hsplit fun hblack => hlit ?_
    simp [hblack, kBlackFrame]
  · rw [blackWritten_iff, ← coupled.written, lastAccepted, Option.bind_eq_some_iff]
    constructor
    · rintro ⟨offer, hlast, hframe⟩
      have accepted : offer.accepted = true := by
        by_contra hnot
        simp [hnot] at hframe
      exact ⟨offer, hlast, accepted, by simpa [accepted] using hframe⟩
    · rintro ⟨offer, hlast, accepted, hframe⟩
      exact ⟨offer, hlast, by simp [accepted, hframe]⟩

end AccessoryController.LocalArgb
