import AccessoryController.LocalArgb.FailDark

/-!
# The timing of the transients

What one call of the renderer can do to the timing of a slot: an application records a changed
sequence and starts it if it may, a pass cancels or expires it or leaves it alone, and a refused
write cancels it. A recorded sequence is kept until a newer one is applied.

## Main definitions

* `Timing.stopped`: a timing that is no longer active
* `Listed r`: every active slot is listed by the held command

## Main results

* `apply_listed`, `apply_unlisted`: the timing of a slot after an application
* `accept_timing`: the same for a fresh command and its epoch
* `settled_timing`, `written_timing`: the timing of a slot after a pass
-/

namespace AccessoryController.LocalArgb

open VehicleCore

/-- The timing with its sequence still recorded. -/
def Timing.stopped (timing : Timing) : Timing := { timing with active := false }

@[simp] theorem Timing.sequence_stopped (timing : Timing) :
    timing.stopped.sequence = timing.sequence := rfl

@[simp] theorem Timing.active_stopped (timing : Timing) : timing.stopped.active = false := rfl

@[simp] theorem Timing.stopped_stopped (timing : Timing) :
    timing.stopped.stopped = timing.stopped := rfl

theorem Timing.live_iff {timing : Timing} {nowUs : MonotonicTimestamp} :
    timing.live nowUs = true ↔ timing.active = true ∧ timing.startedUs ≤ nowUs ∧
      nowUs - timing.startedUs < timing.effect.durationUs := by
  unfold Timing.live
  rw [Bool.and_eq_true, Bool.and_eq_true, decide_eq_true_eq, decide_eq_true_eq, and_assoc]

/-! ### Applications -/

/-- Valid identities with one slot are equal. -/
theorem TransientId.slot_inj {id id' : TransientId} (valid : id.valid) (valid' : id'.valid)
    (same : id.slot = id'.slot) : id.value = id'.value := by
  obtain ⟨hpos, hle⟩ := valid
  obtain ⟨hpos', hle'⟩ := valid'
  have hslot : (id.value - 1) % kMaxTransients = (id'.value - 1) % kMaxTransients :=
    congrArg Fin.val same
  unfold kMaxTransients at *
  omega

/-- The starts of a list have distinct slots. -/
theorem LightingTransientStarts.slots_nodup (list : LightingTransientStarts) :
    (list.starts.map fun start => start.id.slot).Nodup := by
  have hvalues := list.distinct
  rw [List.nodup_map_iff_inj_on (List.Nodup.of_map _ hvalues)]
  intro start hstart start' hstart' hslot
  refine List.inj_on_of_nodup_map hvalues hstart hstart' ?_
  exact TransientId.slot_inj (list.valid start hstart).1 (list.valid start' hstart').1 hslot

namespace TransientLayers

/-- The timing that a start leaves in its slot. -/
def record (timing : Timing) (start : LightingTransientStart) (nowUs : MonotonicTimestamp)
    (epoch pixelCount : ℕ) : Timing :=
  if timing.sequence = start.sequence then timing
  else ⟨start.effect, start.sequence, nowUs, starts start nowUs epoch pixelCount⟩

variable {layers : TransientLayers} {list : LightingTransientStarts}
  {nowUs : MonotonicTimestamp} {epoch pixelCount : ℕ}

/-- The loop over the starts, slot by slot. -/
theorem foldl_record (starts : List LightingTransientStart) (layers : TransientLayers)
    (nodup : (starts.map fun start => start.id.slot).Nodup) :
    let started := starts.foldl (fun (timing : TransientLayers) start =>
      let index := start.id.slot
      if (timing index).sequence = start.sequence then timing
      else Function.update timing index ⟨start.effect, start.sequence, nowUs,
        TransientLayers.starts start nowUs epoch pixelCount⟩) layers
    (∀ start ∈ starts,
      started start.id.slot = record (layers start.id.slot) start nowUs epoch pixelCount) ∧
    ∀ slot, (∀ start ∈ starts, start.id.slot ≠ slot) → started slot = layers slot := by
  induction starts generalizing layers with
  | nil => exact ⟨fun _ h => absurd h List.not_mem_nil, fun _ _ => rfl⟩
  | cons start starts ih =>
    rw [List.map_cons, List.nodup_cons] at nodup
    obtain ⟨hfresh, hrest⟩ := nodup
    have others : ∀ other ∈ starts, other.id.slot ≠ start.id.slot := fun other hother heq =>
      hfresh (heq ▸ List.mem_map_of_mem hother)
    -- the first start changes its own slot only
    obtain ⟨next, hnext, hown, helse⟩ : ∃ next : TransientLayers,
        (if (layers start.id.slot).sequence = start.sequence then layers
          else Function.update layers start.id.slot ⟨start.effect, start.sequence, nowUs,
            TransientLayers.starts start nowUs epoch pixelCount⟩) = next ∧
        next start.id.slot = record (layers start.id.slot) start nowUs epoch pixelCount ∧
        ∀ slot, slot ≠ start.id.slot → next slot = layers slot := by
      refine ⟨_, rfl, ?_, ?_⟩
      · unfold record
        split
        · rfl
        · exact Function.update_self ..
      · intro slot hslot
        split
        · rfl
        · exact Function.update_of_ne hslot ..
    obtain ⟨hlisted, hunlisted⟩ := ih next hrest
    rw [List.foldl_cons]
    rw [hnext]
    constructor
    · intro other hother
      rcases List.mem_cons.mp hother with rfl | hother
      · rw [hunlisted _ others, hown]
      · rw [hlisted other hother, helse _ (others other hother)]
    · intro slot hslot
      rw [hunlisted slot fun other hother => hslot other (List.mem_cons_of_mem _ hother)]
      exact helse slot (Ne.symm (hslot start List.mem_cons_self))

/-- An application records the start that lists a slot. -/
theorem apply_listed {start : LightingTransientStart} (listed : start ∈ list.starts) :
    layers.apply list nowUs epoch pixelCount start.id.slot =
      record (layers start.id.slot) start nowUs epoch pixelCount := by
  have hany : (list.starts.any fun other => other.id.slot == start.id.slot) = true :=
    List.any_eq_true.mpr ⟨start, listed, beq_self_eq_true _⟩
  unfold TransientLayers.apply
  rw [if_pos hany]
  exact (foldl_record list.starts layers list.slots_nodup).1 start listed

/-- An application stops a slot that is not listed. -/
theorem apply_unlisted {slot : Fin kMaxTransients}
    (unlisted : ∀ start ∈ list.starts, start.id.slot ≠ slot) :
    layers.apply list nowUs epoch pixelCount slot = (layers slot).stopped := by
  have hany : ¬ (list.starts.any fun other => other.id.slot == slot) = true := by
    rw [List.any_eq_true]
    rintro ⟨start, hstart, heq⟩
    exact unlisted start hstart (beq_iff_eq.mp heq)
  unfold TransientLayers.apply
  rw [if_neg hany, (foldl_record list.starts layers list.slots_nodup).2 slot unlisted]
  rfl

end TransientLayers

open TransientLayers (record starts)

namespace RendererController

variable {r : RendererController} {nowUs : MonotonicTimestamp}

/-- **A fresh command** stops a slot that it does not list; it leaves or stops a slot whose
sequence it repeats, and under another epoch stops it; a changed sequence is recorded, and runs if
its epoch is the current one, its zone fits the strip and its age is below its duration. -/
theorem accept_timing (command : LightingCommand) (epoch : ℕ) (slot : Fin kMaxTransients) :
    ((∀ start ∈ command.transients.starts, start.id.slot ≠ slot) ∧
      (r.accept command nowUs epoch).transients slot = (r.transients slot).stopped) ∨
    ∃ start ∈ command.transients.starts, start.id.slot = slot ∧
      (((r.transients slot).sequence = start.sequence ∧
        ((r.accept command nowUs epoch).transients slot = (r.transients slot).stopped ∨
          (epoch = r.transientEpoch ∧
            (r.accept command nowUs epoch).transients slot = r.transients slot))) ∨
      ((r.transients slot).sequence ≠ start.sequence ∧
        (r.accept command nowUs epoch).transients slot =
          ⟨start.effect, start.sequence, nowUs, starts start nowUs epoch r.pixelCount⟩)) := by
  have hbase : ∀ slot, (if epoch ≠ r.transientEpoch then r.transients.cancel
      else r.transients) slot =
      if epoch = r.transientEpoch then r.transients slot else (r.transients slot).stopped := by
    intro slot
    by_cases same : epoch = r.transientEpoch
    · rw [if_neg (not_not_intro same), if_pos same]
    · rw [if_pos same, if_neg same]
      rfl
  by_cases listed : ∃ start ∈ command.transients.starts, start.id.slot = slot
  · obtain ⟨start, hstart, rfl⟩ := listed
    refine Or.inr ⟨start, hstart, rfl, ?_⟩
    have hafter : (r.accept command nowUs epoch).transients start.id.slot = _ :=
      TransientLayers.apply_listed hstart
    rw [hafter, hbase]
    have hsequence : (if epoch = r.transientEpoch then r.transients start.id.slot
        else (r.transients start.id.slot).stopped).sequence =
        (r.transients start.id.slot).sequence := by
      split <;> rfl
    unfold record
    rw [hsequence]
    by_cases seen : (r.transients start.id.slot).sequence = start.sequence
    · rw [if_pos seen]
      refine Or.inl ⟨seen, ?_⟩
      by_cases same : epoch = r.transientEpoch
      · rw [if_pos same]
        exact Or.inr ⟨same, rfl⟩
      · rw [if_neg same]
        exact Or.inl rfl
    · rw [if_neg seen]
      exact Or.inr ⟨seen, rfl⟩
  · have unlisted : ∀ start ∈ command.transients.starts, start.id.slot ≠ slot :=
      fun start hstart heq => listed ⟨start, hstart, heq⟩
    refine Or.inl ⟨unlisted, ?_⟩
    have hafter : (r.accept command nowUs epoch).transients slot = _ :=
      TransientLayers.apply_unlisted unlisted
    rw [hafter, hbase]
    split <;> rfl

/-! ### Passes -/

/-- **A settled slot** goes on only if it is live and nothing cancels it, and is stopped
otherwise. -/
theorem settled_timing (r : RendererController) (nowUs : MonotonicTimestamp)
    (slot : Fin kMaxTransients) :
    ((r.settleTransients nowUs).transients slot = r.transients slot ∧
      (r.transients slot).live nowUs = true ∧ r.faulted = false ∧ r.command.actionable = true ∧
      nowUs ≤ r.command.validUntilUs) ∨
    (r.settleTransients nowUs).transients slot = (r.transients slot).stopped := by
  have stays : ∀ layers : TransientLayers, layers.expire nowUs slot =
      if (layers slot).live nowUs then layers slot else (layers slot).stopped := fun _ => rfl
  unfold settleTransients
  dsimp only
  rw [stays]
  by_cases cut : nowUs < r.lastTickUs ∨ r.faulted = true ∨ (!r.command.actionable) = true ∨
      r.command.validUntilUs < nowUs
  · rw [if_pos cut]
    refine Or.inr ?_
    change (if (r.transients slot).stopped.live nowUs = true then (r.transients slot).stopped
      else (r.transients slot).stopped.stopped) = (r.transients slot).stopped
    rw [Timing.stopped_stopped, ite_self]
  · rw [if_neg cut]
    simp only [not_or, Bool.not_eq_true, Bool.not_eq_false', not_lt] at cut
    obtain ⟨-, hfault, hactionable, hdeadline⟩ := cut
    by_cases live : (r.transients slot).live nowUs = true
    · rw [if_pos live]
      exact Or.inl ⟨rfl, live, hfault, hactionable, hdeadline⟩
    · rw [if_neg live]
      exact Or.inr rfl

/-- **A write** keeps the held command and the epoch. Accepted, it keeps the timing; refused, it
stops every slot. -/
theorem written_timing (r : RendererController) (sink : SinkAnswers) (desired : PixelFrame) :
    (r.writeDesired sink desired).renderer.command = r.command ∧
      (r.writeDesired sink desired).renderer.hasCommand = r.hasCommand ∧
      (r.writeDesired sink desired).renderer.transientEpoch = r.transientEpoch ∧
      ∀ slot, (r.writeDesired sink desired).renderer.transients slot =
        if (r.writeDesired sink desired).result then r.transients slot
        else (r.transients slot).stopped := by
  rcases writeDesired_cases r sink desired with
    ⟨-, hw⟩ | ⟨length, hw⟩ | ⟨length, hw⟩ | ⟨length, hw⟩ | ⟨length, hw⟩ <;>
    rw [hw] <;> exact ⟨rfl, rfl, rfl, fun slot => rfl⟩

/-- The command that is held lists every slot that is active. -/
def Listed (r : RendererController) : Prop :=
  ∀ slot, (r.transients slot).active = true →
    r.hasCommand = true ∧ ∃ start ∈ r.command.transients.starts, start.id.slot = slot

theorem listed_accept (command : LightingCommand) (epoch : ℕ) :
    (r.accept command nowUs epoch).Listed := by
  intro slot active
  refine ⟨rfl, ?_⟩
  rcases accept_timing command epoch slot with
    ⟨-, hstopped⟩ | ⟨start, hstart, hslot, -⟩
  · rw [hstopped] at active
    cases active
  · exact ⟨start, hstart, hslot⟩

end RendererController

end AccessoryController.LocalArgb
