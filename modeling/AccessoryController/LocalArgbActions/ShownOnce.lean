import AccessoryController.LocalArgb.TransientTiming
import AccessoryController.LocalArgbActions.Handoff

/-!
# An occurrence in the renderer

An occurrence of a transient has not reached the renderer, or runs, or is over. It starts to run
at its first application, while it is young enough and its epoch is the current one; it runs as
long as every frame draws it; and it does not come back as long as the commands that are applied
list no start older than the recorded one.

## Main definitions

* `Begins`, `Continues`: what the first pass that draws an occurrence has done, and every other
* `ShownOnce start passes`: the passes that draw an occurrence are one interval
* `Progress start r passes`: how far an occurrence is in the renderer

## Main results

* `tick_slot`: what a tick draws and leaves of a slot
* `progress_tick`, `progress_apply`: a pass keeps the progress of every occurrence
-/

namespace AccessoryController.LocalArgbActions

open LocalArgb
open VehicleCore (MonotonicTimestamp)

/-! ### One tick -/

section Tick

variable {r : RendererController} {nowUs : MonotonicTimestamp} {sink : SinkAnswers}

/-- The occurrence of a slot that a settled renderer draws is the one in its timing. -/
theorem mem_drawn {o : Occurrence} (drew : o ∈ drawn r nowUs) :
    (r.transients o.slot).active = true ∧ (r.transients o.slot).sequence = o.sequence := by
  unfold drawn at drew
  split at drew
  · obtain ⟨start, hstart, rfl⟩ := List.mem_map.mp drew
    exact ⟨(List.mem_filter.mp hstart).2, rfl⟩
  · cases drew

/-- What a pass draws of a slot is live there. -/
theorem live_of_drawn {o : Occurrence} (drew : o ∈ drawn (r.settleTransients nowUs) nowUs) :
    (r.transients o.slot).live nowUs = true ∧ (r.transients o.slot).sequence = o.sequence := by
  obtain ⟨active, hsequence⟩ := mem_drawn drew
  rcases r.settled_timing nowUs o.slot with ⟨hsame, live, -⟩ | hstopped
  · rw [hsame] at hsequence
    exact ⟨live, hsequence⟩
  · rw [hstopped] at active
    cases active

/-- What a tick does to the timing of a slot, apart from what it draws. -/
theorem tick_timing (slot : Fin kMaxTransients) :
    (r.tick sink nowUs).renderer.transients slot =
      if (r.tick sink nowUs).result then (r.settleTransients nowUs).transients slot
      else ((r.settleTransients nowUs).transients slot).stopped :=
  (RendererController.written_timing _ sink _).2.2.2 slot

/-- A tick keeps the held command and the epoch. -/
theorem tick_held : (r.tick sink nowUs).renderer.command = r.command ∧
    (r.tick sink nowUs).renderer.hasCommand = r.hasCommand ∧
    (r.tick sink nowUs).renderer.transientEpoch = r.transientEpoch := by
  obtain ⟨hcommand, hhas, hepoch, -⟩ := RendererController.written_timing
    { r.settleTransients nowUs with
      desired := if (r.settleTransients nowUs).shows nowUs then
        (r.settleTransients nowUs).drawFrame nowUs kBlackFrame else kBlackFrame } sink
    (if (r.settleTransients nowUs).shows nowUs then
      (r.settleTransients nowUs).drawFrame nowUs kBlackFrame else kBlackFrame)
  exact ⟨hcommand, hhas, hepoch⟩

/-- **A tick** of a renderer whose active slots are listed: it draws the occurrence of a slot
that is live and keeps it, unless the write is refused; or it draws nothing of the slot, and stops
it. -/
theorem tick_slot (listed : r.Listed) (slot : Fin kMaxTransients) :
    ((r.transients slot).live nowUs = true ∧
      ⟨slot, (r.transients slot).sequence⟩ ∈ drawn (r.settleTransients nowUs) nowUs ∧
      (r.tick sink nowUs).renderer.transients slot =
        if (r.tick sink nowUs).result then r.transients slot else (r.transients slot).stopped) ∨
    ((∀ o ∈ drawn (r.settleTransients nowUs) nowUs, o.slot ≠ slot) ∧
      (r.tick sink nowUs).renderer.transients slot = (r.transients slot).stopped) := by
  rcases r.settled_timing nowUs slot with
    ⟨hsame, live, unfaulted, actionable, hdeadline⟩ | hstopped
  · left
    have active : (r.transients slot).active = true := (Timing.live_iff.mp live).1
    obtain ⟨hcommand, start, hstart, rfl⟩ := listed slot active
    refine ⟨live, ?_, by rw [tick_timing, hsame]⟩
    have shows : (r.settleTransients nowUs).shows nowUs :=
      ⟨unfaulted, hcommand, actionable, hdeadline⟩
    rw [drawn, if_pos shows]
    refine List.mem_map.mpr ⟨start, List.mem_filter.mpr ⟨hstart, ?_⟩, ?_⟩
    · rw [hsame]
      exact active
    · rw [hsame]
  · right
    constructor
    · rintro o drew rfl
      have active := (mem_drawn drew).1
      rw [hstopped] at active
      cases active
    · rw [tick_timing, hstopped, Timing.stopped_stopped, ite_self]

/-- A tick keeps the active slots listed. -/
theorem listed_tick (listed : r.Listed) : (r.tick sink nowUs).renderer.Listed := by
  intro slot active
  have before : (r.transients slot).active = true := by
    rcases tick_slot listed slot with
      ⟨live, -, -⟩ | ⟨-, hstopped⟩
    · exact (Timing.live_iff.mp live).1
    · rw [hstopped] at active
      cases active
  obtain ⟨hcommand, hhas, -⟩ := @tick_held r nowUs sink
  rw [hcommand, hhas]
  exact listed slot before

end Tick

/-! ### The progress of an occurrence -/

/-- The first pass that draws an occurrence applies it for the first time, while its age is below
its duration, under the epoch of its trigger. -/
structure Begins (start : LightingTransientStart) (before : List Pass) (first : Pass) (epoch : ℕ) :
    Prop where
  applied : ∃ command, first.applied = some (command, epoch) ∧ start ∈ command.transients.starts
  current : start.epoch = epoch
  origin : start.originUs ≤ first.nowUs
  young : first.nowUs - start.originUs < start.effect.durationUs
  fresh : ∀ pass ∈ before, ¬ pass.applies (occurrence start) ∧ occurrence start ∉ pass.drawn

/-- A pass that draws an occurrence that has run since a time: less than the duration has passed,
and a command that the pass applies lists the occurrence under the same epoch. -/
structure Continues (start : LightingTransientStart) (startedUs : MonotonicTimestamp) (epoch : ℕ)
    (pass : Pass) : Prop where
  drawn : occurrence start ∈ pass.drawn
  later : startedUs ≤ pass.nowUs
  unexpired : pass.nowUs - startedUs < start.effect.durationUs
  applied : ∀ command epoch', pass.applied = some (command, epoch') →
    epoch' = epoch ∧ pass.applies (occurrence start)

/-- The last passes, from the first application of an occurrence on, draw it. Only the last one may
have found a fault. -/
def Showing (start : LightingTransientStart) (startedUs : MonotonicTimestamp) (epoch : ℕ)
    (passes : List Pass) : Prop :=
  ∃ before first later, passes = before ++ (first :: later) ∧ first.nowUs = startedUs ∧
    Begins start before first epoch ∧
    (∀ pass ∈ first :: later, Continues start startedUs epoch pass) ∧
    ∀ pass ∈ (first :: later).dropLast, pass.accepted = true

/-- **The passes that draw an occurrence** are one interval, or none: once it is over, no pass
draws it. -/
def ShownOnce (start : LightingTransientStart) (passes : List Pass) : Prop :=
  (∀ pass ∈ passes, occurrence start ∉ pass.drawn) ∨
  ∃ startedUs epoch interval after, passes = interval ++ after ∧
    Showing start startedUs epoch interval ∧ ∀ pass ∈ after, occurrence start ∉ pass.drawn

section Intervals

variable {start : LightingTransientStart} {startedUs : MonotonicTimestamp} {epoch : ℕ}
  {passes : List Pass} {pass : Pass}

theorem Showing.shownOnce (showing : Showing start startedUs epoch passes) :
    ShownOnce start passes :=
  Or.inr ⟨startedUs, epoch, passes, [], (List.append_nil _).symm, showing,
    fun _ hpass => absurd hpass List.not_mem_nil⟩

/-- A pass that does not draw the occurrence follows the interval. -/
theorem ShownOnce.snoc (once : ShownOnce start passes) (undrawn : occurrence start ∉ pass.drawn) :
    ShownOnce start (passes ++ [pass]) := by
  have extended : ∀ {earlier : List Pass}, (∀ p ∈ earlier, occurrence start ∉ p.drawn) →
      ∀ p ∈ earlier ++ [pass], occurrence start ∉ p.drawn := by
    intro earlier none p hp
    rcases List.mem_append.mp hp with hp | hp
    · exact none p hp
    · rw [List.mem_singleton.mp hp]
      exact undrawn
  rcases once with none | ⟨startedUs, epoch, interval, after, rfl, showing, none⟩
  · exact Or.inl (extended none)
  · exact Or.inr ⟨startedUs, epoch, interval, after ++ [pass], List.append_assoc .., showing,
      extended none⟩

/-- The first application begins the interval. -/
theorem Begins.showing (begins : Begins start passes pass epoch)
    (continues : Continues start pass.nowUs epoch pass) :
    Showing start pass.nowUs epoch (passes ++ [pass]) := by
  refine ⟨passes, pass, [], rfl, rfl, begins, fun p hp => ?_, fun p hp => ?_⟩
  · rw [List.mem_singleton.mp hp]
    exact continues
  · cases hp

/-- Another pass extends the interval, if the strip took the frame before it. -/
theorem Showing.snoc (showing : Showing start startedUs epoch passes)
    (accepted : ∀ last ∈ passes.getLast?, last.accepted = true)
    (continues : Continues start startedUs epoch pass) :
    Showing start startedUs epoch (passes ++ [pass]) := by
  obtain ⟨before, first, later, rfl, hfirst, begins, all, earlier⟩ := showing
  refine ⟨before, first, later ++ [pass], List.append_assoc .., hfirst, begins, ?_, ?_⟩
  · intro p hp
    rcases List.mem_append.mp (List.cons_append ▸ hp) with hp | hp
    · exact all p hp
    · rw [List.mem_singleton.mp hp]
      exact continues
  · intro p hp
    rw [← List.cons_append, List.dropLast_concat] at hp
    -- the passes before the new one are those before the last of the old ones, and that one
    rw [List.getLast?_append_of_ne_nil _ (List.cons_ne_nil first later)] at accepted
    rw [← List.dropLast_append_getLast (List.cons_ne_nil first later)] at hp
    rcases List.mem_append.mp hp with hp | hp
    · exact earlier p hp
    · rw [List.mem_singleton.mp hp]
      exact accepted _ (List.getLast?_eq_some_getLast (List.cons_ne_nil first later))

end Intervals

/-- The timing of an occurrence that is over: its sequence or a newer one is recorded, and the
occurrence does not run. -/
def Over (start : LightingTransientStart) (r : RendererController) : Prop :=
  start.sequence ≤ (r.transients start.id.slot).sequence ∧
    (start.sequence = (r.transients start.id.slot).sequence →
      (r.transients start.id.slot).active = false)

/-- How far an occurrence is in the renderer. -/
inductive Progress (start : LightingTransientStart) (r : RendererController) (passes : List Pass) :
    Prop
  | unseen
      (older : (r.transients start.id.slot).sequence < start.sequence)
      (fresh : ∀ pass ∈ passes, ¬ pass.applies (occurrence start) ∧
        occurrence start ∉ pass.drawn)
  | running (startedUs : MonotonicTimestamp)
      (timing : r.transients start.id.slot = ⟨start.effect, start.sequence, startedUs, true⟩)
      (showing : Showing start startedUs r.transientEpoch passes)
      (accepted : ∀ last ∈ passes.getLast?, last.accepted = true)
  | passed (passed : Over start r) (once : ShownOnce start passes)

section Passes

variable {start : LightingTransientStart} {r : RendererController} {passes : List Pass}
  {nowUs : MonotonicTimestamp} {sink : SinkAnswers}

theorem Progress.shownOnce (progress : Progress start r passes) : ShownOnce start passes := by
  cases progress with
  | unseen older fresh => exact Or.inl fun pass hpass => (fresh pass hpass).2
  | running startedUs timing showing accepted => exact showing.shownOnce
  | passed passed once => exact once

/-- The timing of an occurrence that is over, slot by slot. -/
theorem Over.of_timing {r' : RendererController} (passed : Over start r)
    (hsequence : (r'.transients start.id.slot).sequence =
      (r.transients start.id.slot).sequence)
    (hactive : (r'.transients start.id.slot).active = true →
      (r.transients start.id.slot).active = true) :
    Over start r' := by
  obtain ⟨hseen, hinactive⟩ := passed
  unfold Over
  rw [hsequence]
  refine ⟨hseen, fun same => Bool.eq_false_iff.mpr fun active => ?_⟩
  rw [hinactive same] at hactive
  exact Bool.false_ne_true (hactive active)

/-- A tick keeps the sequence of a slot, and starts nothing. -/
theorem tick_keeps (listed : r.Listed) (slot : Fin kMaxTransients) :
    ((r.tick sink nowUs).renderer.transients slot).sequence = (r.transients slot).sequence ∧
      (((r.tick sink nowUs).renderer.transients slot).active = true →
        (r.transients slot).active = true) := by
  rcases @tick_slot r nowUs sink listed slot with ⟨live, -, htiming⟩ | ⟨-, htiming⟩
  · rw [htiming]
    refine ⟨?_, fun _ => (Timing.live_iff.mp live).1⟩
    split <;> rfl
  · rw [htiming]
    exact ⟨rfl, fun stopped => absurd stopped Bool.false_ne_true⟩

/-- The pass that ends with a tick of a renderer. -/
def passOf (r : RendererController) (applied : Option (LightingCommand × ℕ))
    (nowUs : MonotonicTimestamp) (sink : SinkAnswers) : Pass :=
  ⟨applied, nowUs, drawn (r.settleTransients nowUs) nowUs, (r.tick sink nowUs).result⟩

variable {applied : Option (LightingCommand × ℕ)}

theorem progress_of_unseen (listed : r.Listed)
    (older : (r.transients start.id.slot).sequence < start.sequence)
    (fresh : ∀ pass ∈ passes, ¬ pass.applies (occurrence start) ∧
      occurrence start ∉ pass.drawn)
    (unapplied : ¬ (passOf r applied nowUs sink).applies (occurrence start)) :
    Progress start (r.tick sink nowUs).renderer (passes ++ [passOf r applied nowUs sink]) := by
  refine .unseen ?_ fun pass hpass => ?_
  · rw [(tick_keeps listed start.id.slot).1]
    exact older
  · rcases List.mem_append.mp hpass with hpass | hpass
    · exact fresh pass hpass
    · rw [List.mem_singleton.mp hpass]
      refine ⟨unapplied, fun drew => ?_⟩
      have hsequence : (r.transients start.id.slot).sequence = start.sequence :=
        (live_of_drawn drew).2
      omega

theorem progress_of_over (listed : r.Listed) (passed : Over start r)
    (once : ShownOnce start passes) :
    Progress start (r.tick sink nowUs).renderer (passes ++ [passOf r applied nowUs sink]) := by
  obtain ⟨hsequence, hactive⟩ := @tick_keeps r nowUs sink listed start.id.slot
  refine .passed (passed.of_timing hsequence hactive) (once.snoc fun drew => ?_)
  obtain ⟨live, hsame⟩ := live_of_drawn drew
  have inactive := passed.2 hsame.symm
  exact Bool.false_ne_true (inactive.symm.trans (Timing.live_iff.mp live).1)

/-- An occurrence that runs when the pass draws its frame goes on if the frame draws it and the
strip takes the frame, and is over otherwise. -/
theorem progress_of_running (listed : r.Listed) {startedUs : MonotonicTimestamp}
    (timing : r.transients start.id.slot = ⟨start.effect, start.sequence, startedUs, true⟩)
    (once : ShownOnce start passes)
    (goes : Continues start startedUs r.transientEpoch (passOf r applied nowUs sink) →
      Showing start startedUs r.transientEpoch (passes ++ [passOf r applied nowUs sink]))
    (lists : ∀ command epoch, applied = some (command, epoch) →
      epoch = r.transientEpoch ∧ (passOf r applied nowUs sink).applies (occurrence start)) :
    Progress start (r.tick sink nowUs).renderer (passes ++ [passOf r applied nowUs sink]) := by
  have hepoch := (@tick_held r nowUs sink).2.2
  have ended : (r.tick sink nowUs).renderer.transients start.id.slot =
      (r.transients start.id.slot).stopped → Over start (r.tick sink nowUs).renderer := by
    intro hstopped
    unfold Over
    rw [hstopped, timing]
    exact ⟨le_refl _, fun _ => rfl⟩
  rcases @tick_slot r nowUs sink listed start.id.slot with
    ⟨live, drew, htiming⟩ | ⟨none, htiming⟩
  · rw [timing] at live drew
    obtain ⟨-, hlater, hunexpired⟩ := Timing.live_iff.mp live
    have showing := goes ⟨drew, hlater, hunexpired, lists⟩
    by_cases taken : (r.tick sink nowUs).result = true
    · rw [if_pos taken] at htiming
      refine .running startedUs (htiming.trans timing) (hepoch ▸ showing) fun last hlast => ?_
      rw [List.getLast?_concat] at hlast
      rw [← Option.some.inj hlast]
      exact taken
    · rw [if_neg taken] at htiming
      exact .passed (ended htiming) showing.shownOnce
  · exact .passed (ended htiming) (once.snoc fun drew => none _ drew rfl)

/-- **A tick** keeps the progress of every occurrence. -/
theorem progress_tick (listed : r.Listed) (progress : Progress start r passes) :
    Progress start (tickPass r nowUs sink).1 (passes ++ [(tickPass r nowUs sink).2]) := by
  change Progress start (r.tick sink nowUs).renderer (passes ++ [passOf r none nowUs sink])
  cases progress with
  | unseen older fresh =>
    refine progress_of_unseen listed older fresh ?_
    rintro ⟨command, epoch, happlied, -⟩
    cases happlied
  | running startedUs timing showing accepted =>
    refine progress_of_running listed timing showing.shownOnce (fun continues => ?_) ?_
    · exact showing.snoc accepted continues
    · intro command epoch happlied
      cases happlied
  | passed passed once => exact progress_of_over listed passed once

/-- Two starts of a list with one slot are equal. -/
theorem eq_of_slot {list : LightingTransientStarts} {first second : LightingTransientStart}
    (hfirst : first ∈ list.starts) (hsecond : second ∈ list.starts)
    (same : first.id.slot = second.id.slot) : first = second :=
  List.inj_on_of_nodup_map list.slots_nodup hfirst hsecond same

/-- **An application** keeps the progress of an occurrence, if its command lists no other start as
the occurrence and no start older than the recorded one. -/
theorem progress_apply {command : LightingCommand} {epoch : ℕ}
    (identified : ∀ other ∈ command.transients.starts,
      occurrence other = occurrence start → other = start)
    (ahead : ∀ other ∈ command.transients.starts,
      (r.transients other.id.slot).sequence ≤ other.sequence)
    (progress : Progress start r passes) :
    Progress start (applyPass r command nowUs epoch sink).1
      (passes ++ [(applyPass r command nowUs epoch sink).2]) := by
  have listed := @RendererController.listed_accept r nowUs command epoch
  have hepoch : (r.accept command nowUs epoch).transientEpoch = epoch := rfl
  change Progress start ((r.accept command nowUs epoch).tick sink nowUs).renderer
    (passes ++ [passOf (r.accept command nowUs epoch) (some (command, epoch)) nowUs sink])
  -- the command lists the occurrence only through the start of its slot
  have applies_iff : ∀ other ∈ command.transients.starts, other.id.slot = start.id.slot →
      (passOf (r.accept command nowUs epoch) (some (command, epoch)) nowUs sink).applies
        (occurrence start) → other = start := by
    rintro other hother hslot ⟨command', epoch', happlied, found, hfound, hsame⟩
    obtain ⟨rfl, rfl⟩ := Prod.mk.inj (Option.some.inj happlied)
    have hfoundSlot : found.id.slot = start.id.slot := congrArg Occurrence.slot hsame
    rw [eq_of_slot hother hfound (hslot.trans hfoundSlot.symm)]
    exact identified found hfound hsame
  have lists : start ∈ command.transients.starts → ∀ command' epoch',
      some (command, epoch) = some (command', epoch') →
        epoch' = (r.accept command nowUs epoch).transientEpoch ∧
        (passOf (r.accept command nowUs epoch) (some (command, epoch)) nowUs sink).applies
          (occurrence start) := by
    intro hstart command' epoch' happlied
    obtain ⟨rfl, rfl⟩ := Prod.mk.inj (Option.some.inj happlied)
    exact ⟨rfl, command, epoch, rfl, start, hstart, rfl⟩
  rcases @RendererController.accept_timing r nowUs command epoch start.id.slot with
    ⟨unlisted, hstopped⟩ | ⟨other, hother, hslot, ⟨hseen, hkept⟩ | ⟨hnew, hrecorded⟩⟩
  · have unapplied : ¬ (passOf (r.accept command nowUs epoch) (some (command, epoch)) nowUs
        sink).applies (occurrence start) := by
      rintro ⟨command', epoch', happlied, found, hfound, hsame⟩
      obtain ⟨rfl, rfl⟩ := Prod.mk.inj (Option.some.inj happlied)
      exact unlisted found hfound (congrArg Occurrence.slot hsame)
    cases progress with
    | unseen older fresh =>
      refine progress_of_unseen listed ?_ fresh unapplied
      rw [hstopped]
      exact older
    | running startedUs timing showing accepted =>
      refine progress_of_over listed ?_ showing.shownOnce
      unfold Over
      rw [hstopped, timing]
      exact ⟨le_refl _, fun _ => rfl⟩
    | passed passed once =>
      refine progress_of_over listed (passed.of_timing (by rw [hstopped]; rfl) ?_) once
      intro active
      rw [hstopped] at active
      cases active
  · -- the command repeats the recorded sequence: nothing is started
    have hsequence : ((r.accept command nowUs epoch).transients start.id.slot).sequence =
        (r.transients start.id.slot).sequence := by
      rcases hkept with hstopped | ⟨-, hsame⟩
      · rw [hstopped]
        rfl
      · rw [hsame]
    cases progress with
    | unseen older fresh =>
      refine progress_of_unseen listed (hsequence ▸ older) fresh fun applies => ?_
      rw [applies_iff other hother hslot applies] at hseen
      omega
    | running startedUs timing showing accepted =>
      rcases hkept with hstopped | ⟨rfl, hsame⟩
      · refine progress_of_over listed ?_ showing.shownOnce
        unfold Over
        rw [hstopped, timing]
        exact ⟨le_refl _, fun _ => rfl⟩
      · have hstart : other = start := by
          refine identified other hother ?_
          rw [timing] at hseen
          exact congrArg₂ Occurrence.mk hslot hseen.symm
        refine progress_of_running listed (hsame.trans timing) showing.shownOnce
          (fun continues => showing.snoc accepted continues) (lists (hstart ▸ hother))
    | passed passed once =>
      refine progress_of_over listed (passed.of_timing hsequence ?_) once
      intro active
      rcases hkept with hstopped | ⟨-, hsame⟩
      · rw [hstopped] at active
        cases active
      · rw [← hsame]
        exact active
  · -- the command brings a newer sequence for the slot
    have hnewer : (r.transients start.id.slot).sequence < other.sequence := by
      refine lt_of_le_of_ne ?_ hnew
      rw [← hslot]
      exact ahead other hother
    cases progress with
    | unseen older fresh =>
      rcases Nat.lt_trichotomy other.sequence start.sequence with hlt | heq | hgt
      · refine progress_of_unseen listed ?_ fresh fun applies => ?_
        · rw [hrecorded]
          exact hlt
        · rw [applies_iff other hother hslot applies] at hlt
          exact Nat.lt_irrefl _ hlt
      · obtain rfl := identified other hother (congrArg₂ Occurrence.mk hslot heq)
        have unshown : ShownOnce other passes := Or.inl fun pass hpass => (fresh pass hpass).2
        cases hstarts : TransientLayers.starts other nowUs epoch r.pixelCount with
        | false =>
          refine progress_of_over listed ?_ unshown
          unfold Over
          rw [hrecorded, hstarts]
          exact ⟨le_refl _, fun _ => rfl⟩
        | true =>
          rw [hstarts] at hrecorded
          refine progress_of_running listed hrecorded unshown (fun continues => ?_)
            (lists hother)
          unfold TransientLayers.starts at hstarts
          simp only [Bool.and_eq_true, decide_eq_true_eq, beq_iff_eq] at hstarts
          obtain ⟨⟨⟨⟨-, hepoch⟩, horigin⟩, hyoung⟩, -⟩ := hstarts
          exact Begins.showing ⟨⟨command, rfl, hother⟩, hepoch, horigin, hyoung, fresh⟩ continues
      · refine progress_of_over listed ?_ (Or.inl fun pass hpass => (fresh pass hpass).2)
        unfold Over
        rw [hrecorded]
        exact ⟨Nat.le_of_lt hgt, fun same => absurd same (Nat.ne_of_lt hgt)⟩
    | running startedUs timing showing accepted =>
      refine progress_of_over listed ?_ showing.shownOnce
      rw [timing] at hnewer
      unfold Over
      rw [hrecorded]
      exact ⟨Nat.le_of_lt hnewer, fun same => absurd same (Nat.ne_of_lt hnewer)⟩
    | passed passed once =>
      refine progress_of_over listed ?_ once
      have hgt : start.sequence < other.sequence := Nat.lt_of_le_of_lt passed.1 hnewer
      unfold Over
      rw [hrecorded]
      exact ⟨Nat.le_of_lt hgt, fun same => absurd same (Nat.ne_of_lt hgt)⟩

end Passes

end AccessoryController.LocalArgbActions
