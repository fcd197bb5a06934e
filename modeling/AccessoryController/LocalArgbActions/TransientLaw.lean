import AccessoryController.LocalArgbActions.ShownOnce

/-!
# Transients are shown at most once

The starts on their way to the renderer are in the gate with the engine's thread, in the queue and
with the worker. Whatever overwrites, rejects or blackens a snapshot only takes starts away, so
from the newest to the oldest their sequences never increase, and the renderer has recorded none
that is newer.

## Main definitions

* `underway s`: the starts on their way, the newest first
* `Ordered s created`: the order of the starts, and where they come from
* `Witnessed s events`: the progress of every occurrence that was created
* `FewTriggers events`: no binding is triggered so often that its sequences repeat

## Main results

* `witnessed_step`: one step keeps the order and the progress
* `transients_shown_once`: every occurrence is drawn in one interval of passes, or never, as long
  as no sequence repeats
* `wrapped_transient_shown_twice`: a sequence that repeats is shown again
* `transients_expire`: an occurrence is drawn for less than its duration from its application on
-/

namespace AccessoryController.LocalArgbActions

open ActionEngine (ActionCommand ActionId)
open Handoff
open LocalArgb Machine
open VehicleCore (MonotonicTimestamp)

/-! ### The starts on their way -/

/-- The command that a publisher has with it. -/
def carried : Place → Option LightingCommand
  | .enter command => some command
  | .capture command => some command
  | .check command _ => some command
  | .hand command _ => some command
  | _ => none

def Worker.held : Worker → Option LightingCommand
  | .received command => some command
  | _ => none

def startsIn (command : Option LightingCommand) : List LightingTransientStart :=
  command.elim [] fun command => command.transients.starts

variable {start : LightingTransientStart} {s : Handoff Empty} (registrations : List Registration)

section

variable {T : Type*}

/-- The starts on their way to the renderer, the newest first. -/
def underway (s : Handoff T) : List LightingTransientStart :=
  startsIn (carried (s.gate.2 none)) ++ (startsIn s.mailbox ++ startsIn s.worker.held)

/-- The sequence of the latest trigger of a slot. -/
def count (leds : LedActionSink) (slot : Fin kMaxTransients) : ℕ :=
  (leds.transients.bindings[slot.val]?).elim 0 TransientBinding.sequence

/-- The starts of a slot. -/
def tally (starts : List LightingTransientStart) (slot : Fin kMaxTransients) : ℕ :=
  starts.countP fun start => start.id.slot == slot

theorem tally_append (starts starts' : List LightingTransientStart) (slot : Fin kMaxTransients) :
    tally (starts ++ starts') slot = tally starts slot + tally starts' slot :=
  List.countP_append

theorem tally_pos {starts : List LightingTransientStart} (h : start ∈ starts) :
    0 < tally starts start.id.slot :=
  List.countP_pos_iff.mpr ⟨start, h, beq_self_eq_true _⟩

/-- The starts on their way are among the created ones and in order; the renderer has recorded
none that is newer; and the tables count every start that was created, and count no more. -/
structure Ordered (s : Handoff T) (created : List LightingTransientStart) : Prop where
  others : ∀ t, carried (s.gate.2 (some t)) = none
  order : (underway s).Pairwise fun newer older =>
    newer.id.slot = older.id.slot → older.sequence ≤ newer.sequence
  known : ∀ start ∈ underway s, start ∈ created
  ahead : ∀ start ∈ underway s,
    (s.renderer.transients start.id.slot).sequence ≤ start.sequence
  recorded : ∀ slot, (s.renderer.transients slot).sequence ≤ count s.leds slot
  counted : ∀ start ∈ created, start.sequence ≤ count s.leds start.id.slot
  tallied : ∀ slot, count s.leds slot ≤ tally created slot
  distinct : (created.map occurrence).Nodup
  retained : ∀ (index : ℕ) (binding : TransientBinding),
    s.leds.transients.bindings[index]? = some binding → binding.retained = true →
      binding.start index ∈ created
  listed : s.renderer.Listed
  runs : ∀ slot, (s.renderer.transients slot).active = true →
    ∃ start ∈ created, occurrence start = ⟨slot, (s.renderer.transients slot).sequence⟩

/-- Every created occurrence has made its progress, and the passes draw and apply no other. -/
structure Witnessed (s : Handoff T) (events : List Event) : Prop where
  ordered : Ordered s (startsOf events)
  progress : ∀ start ∈ startsOf events, Progress start s.renderer (passesOf events)
  known : ∀ pass ∈ passesOf events, ∀ o, pass.applies o ∨ o ∈ pass.drawn →
    ∃ start ∈ startsOf events, occurrence start = o

variable {s s' : Handoff T} {created : List LightingTransientStart} {events : List Event}

theorem Ordered.unique (ordered : Ordered s created) {start' : LightingTransientStart}
    (hstart : start ∈ created) (hstart' : start' ∈ created)
    (same : occurrence start' = occurrence start) : start' = start :=
  List.inj_on_of_nodup_map ordered.distinct hstart' hstart same

/-- A step that creates and draws nothing, and takes starts away at most, keeps the order. -/
theorem Ordered.of_sublist (ordered : Ordered s created)
    (others : ∀ t, carried (s'.gate.2 (some t)) = none)
    (fewer : (underway s').Sublist (underway s)) (renderer : s'.renderer = s.renderer)
    (counts : ∀ slot, count s'.leds slot = count s.leds slot)
    (kept : ∀ (index : ℕ) (binding : TransientBinding),
      s'.leds.transients.bindings[index]? = some binding → binding.retained = true →
        s.leds.transients.bindings[index]? = some binding) : Ordered s' created where
  others := others
  order := ordered.order.sublist fewer
  known start hstart := ordered.known start (fewer.subset hstart)
  ahead start hstart := by
    rw [renderer]
    exact ordered.ahead start (fewer.subset hstart)
  recorded slot := by
    rw [renderer, counts]
    exact ordered.recorded slot
  counted start hstart := by
    rw [counts]
    exact ordered.counted start hstart
  tallied slot := by
    rw [counts]
    exact ordered.tallied slot
  distinct := ordered.distinct
  retained index binding hbinding retained :=
    ordered.retained index binding (kept index binding hbinding retained) retained
  listed := by
    rw [renderer]
    exact ordered.listed
  runs := by
    rw [renderer]
    exact ordered.runs

end

/-! ### The gate -/

/-- A permitted step leaves a publisher with the command that it had, or with none. -/
theorem carried_act {engine : Bool} {g : Gate} {p : Place} {c : Choice}
    (allowed : permitted engine p c = true) :
    carried (act g p c).2 = none ∨ carried (act g p c).2 = carried p := by
  cases p with
  | idle =>
    cases c with
    | answer _ => exact Or.inl rfl
    | call call =>
      cases call with
      | publish command => cases allowed
      | _ => exact Or.inl rfl
  | enter command => exact Or.inr rfl
  | capture command => exact Or.inr rfl
  | check command epoch =>
    by_cases opened : g.state = .opened
    · exact Or.inr (by simp [act, opened, carried])
    · exact Or.inl (by simp [act, opened, carried])
  | hand command epoch => cases c <;> first | exact Or.inl rfl | exact Or.inr rfl
  | recheck accepted epoch =>
    refine Or.inl ?_
    simp only [act]
    split <;> rfl
  | compare accepted epoch =>
    refine Or.inl ?_
    simp only [act]
    split <;> rfl
  | shutEpoch restart => cases restart <;> exact Or.inl rfl
  | await =>
    cases c with
    | call call => exact Or.inl rfl
    | answer expired =>
      refine Or.inl ?_
      simp only [act]
      repeat' split
      all_goals rfl
  | _ => exact Or.inl rfl

/-- What a step hands to the queue is black, or the command of the publisher, which has then parted
with it. -/
theorem handed_cases (g : Gate) (p : Place) (c : Choice) :
    handed p c = none ∨ handed p c = some {} ∨
      (handed p c = carried p ∧ carried (act g p c).2 = none) := by
  cases p with
  | hand command epoch =>
    cases c with
    | call call => exact Or.inl rfl
    | answer accepted =>
      cases accepted with
      | false => exact Or.inl rfl
      | true => exact Or.inr (Or.inr ⟨rfl, rfl⟩)
  | blacken | closeBlack | failOffBlack =>
    cases c with
    | call call => exact Or.inl rfl
    | answer accepted =>
      cases accepted with
      | false => exact Or.inl rfl
      | true => exact Or.inr (Or.inl rfl)
  | _ => exact Or.inl rfl

/-- The starts that a queue and a publisher hold after a step are among those before it. -/
theorem handed_sublist (g : Gate) {engine : Bool} {p : Place} {c : Choice}
    (allowed : permitted engine p c = true) (mailbox : Option LightingCommand) :
    (startsIn (carried (act g p c).2) ++ startsIn ((handed p c).or mailbox)).Sublist
      (startsIn (carried p) ++ startsIn mailbox) := by
  have publisher : (startsIn (carried (act g p c).2)).Sublist (startsIn (carried p)) := by
    rcases @carried_act engine g p c allowed with hnone | hsame
    · rw [hnone]
      exact List.nil_sublist _
    · rw [hsame]
  rcases handed_cases g p c with hnone | hblack | ⟨hcommand, hparted⟩
  · rw [hnone]
    exact publisher.append (List.Sublist.refl _)
  · rw [hblack]
    exact publisher.append (List.nil_sublist _)
  · rw [hcommand, hparted]
    cases hcarried : carried p with
    | none => exact List.Sublist.refl _
    | some command => exact List.sublist_append_left _ _

/-- A retired adapter has no retained start; its counters stay. -/
theorem settle_bindings (leds : LedActionSink) (accepted : Bool) (index : ℕ) :
    (leds.settle accepted).transients.bindings[index]? =
      (leds.transients.bindings[index]?).map fun binding =>
        if accepted then binding else { binding with retained := false } := by
  cases accepted with
  | false => exact List.getElem?_map
  | true =>
    change leds.transients.bindings[index]? = (leds.transients.bindings[index]?).map id
    rw [Option.map_id, id]

theorem published_bindings (leds : LedActionSink) (p : Place) (index : ℕ) :
    ∃ accepted : Bool, (published leds p).transients.bindings[index]? =
      (leds.transients.bindings[index]?).map fun binding =>
        if accepted then binding else { binding with retained := false } := by
  cases p with
  | leave result => exact ⟨result, settle_bindings leds result index⟩
  | _ => exact ⟨true, settle_bindings leds true index⟩

section

variable {T : Type*} [DecidableEq T] {s : Handoff T} {created : List LightingTransientStart}

/-- **A step in the gate** keeps the order. -/
theorem ordered_pass (ordered : Ordered s created) (thread : Option T) (choice : Choice) :
    Ordered (s.pass thread choice) created := by
  unfold Handoff.pass
  split
  case isFalse => exact ordered
  case isTrue allowed =>
    -- the tables are those before, or have their starts retired
    have tables : ∀ index : ℕ, ∃ accepted : Bool,
        (if thread.isNone then published s.leds (s.gate.2 none)
          else s.leds).transients.bindings[index]? =
        (s.leds.transients.bindings[index]?).map fun binding : TransientBinding =>
          if accepted then binding else { binding with retained := false } := by
      intro index
      split
      · exact published_bindings s.leds _ index
      · exact ⟨true, settle_bindings s.leds true index⟩
    have fewer := handed_sublist s.gate.1 allowed s.mailbox
    refine ordered.of_sublist (fun t => ?_) ?_ rfl ?_ ?_
    · by_cases same : some t = thread
      · subst same
        rw [Threads.step_self]
        rcases @carried_act _ s.gate.1 _ _ allowed with hnone | hsame
        · exact hnone
        · exact hsame.trans (ordered.others t)
      · rw [Threads.step_other act s.gate thread choice same]
        exact ordered.others t
    · unfold underway
      rw [← List.append_assoc, ← List.append_assoc]
      refine List.Sublist.append ?_ (List.Sublist.refl _)
      cases thread with
      | none =>
        rw [Threads.step_self]
        exact fewer
      | some t =>
        rw [Threads.step_other act s.gate (some t) choice (Option.some_ne_none t).symm]
        rw [ordered.others t] at fewer
        exact (List.Sublist.refl _).append ((List.sublist_append_right _ _).trans fewer)
    · intro slot
      obtain ⟨accepted, htables⟩ := tables slot.val
      unfold count
      rw [htables]
      cases s.leds.transients.bindings[slot.val]? with
      | none => rfl
      | some binding => cases accepted <;> rfl
    · intro index binding hbinding retained
      obtain ⟨accepted, htables⟩ := tables index
      rw [htables] at hbinding
      obtain ⟨origin, horigin, rfl⟩ := Option.map_eq_some_iff.mp hbinding
      cases accepted with
      | false => cases retained
      | true => exact horigin

end

/-! ### Triggers -/

section Record

variable {leds : LedActionSink} {command : ActionCommand} {nowUs : MonotonicTimestamp}
  {epoch : ℕ}

/-- An execution triggers the bindings of its action, if it is a trigger, and no other. -/
theorem record_bindings (leds : LedActionSink) (command : ActionCommand)
    (nowUs : MonotonicTimestamp) (epoch index : ℕ) :
    (leds.record command nowUs epoch).1.transients.bindings[index]? =
      (leds.transients.bindings[index]?).map fun binding =>
        if command.kind = .trigger ∧ binding.action = command.action then
          binding.triggered nowUs epoch else binding := by
  unfold LedActionSink.record
  by_cases trigger : command.kind = .trigger
  · rw [if_pos trigger]
    change (List.map _ leds.transients.bindings)[index]? = _
    rw [List.getElem?_map]
    simp only [trigger, true_and]
  · rw [if_neg trigger]
    simp only [trigger, false_and, if_false]
    exact Option.map_id'.symm

theorem mem_created :
    start ∈ created leds command nowUs epoch ↔ command.kind = .trigger ∧
      ∃ index, ∃ binding : TransientBinding, leds.transients.bindings[index]? = some binding ∧
        binding.action = command.action ∧
        start = (binding.triggered nowUs epoch).start index := by
  unfold created
  split
  · rename_i trigger
    rw [List.mem_map]
    constructor
    · rintro ⟨⟨binding, index⟩, hentry, rfl⟩
      obtain ⟨hentry, haction⟩ := List.mem_filter.mp hentry
      exact ⟨trigger, index, binding, List.mem_zipIdx_iff_getElem?.mp hentry,
        beq_iff_eq.mp haction, rfl⟩
    · rintro ⟨-, index, binding, hbinding, haction, rfl⟩
      refine ⟨(binding, index), List.mem_filter.mpr ⟨?_, beq_iff_eq.mpr haction⟩, rfl⟩
      exact List.mem_zipIdx_iff_getElem?.mpr hbinding
  · rename_i other
    exact ⟨fun h => absurd h List.not_mem_nil, fun h => absurd h.1 other⟩

/-- The start of a registered binding has the slot of its index. -/
theorem slot_start {index : ℕ} {binding other : TransientBinding}
    (registered : leds.transients.bindings[index]? = some binding) :
    (other.start index).id.slot.val = index := by
  have hlt : index < leds.transients.bindings.length :=
    (List.getElem?_eq_some_iff.mp registered).1
  have hle : leds.transients.bindings.length ≤ kMaxTransients := leds.transients.bounded
  exact Nat.mod_eq_of_lt (Nat.lt_of_lt_of_le hlt hle)

/-- A snapshot lists the latest starts of the recorded tables. -/
theorem record_snapshot {snapshot : LightingCommand}
    (publishes : (leds.record command nowUs epoch).2 = some snapshot) :
    snapshot.transients =
      TransientBindings.latest (leds.record command nowUs epoch).1.transients epoch := by
  unfold LedActionSink.record at publishes
  rw [Option.ite_none_right_eq_some] at publishes
  rw [← Option.some.inj publishes.2]
  rfl

/-- The counters of the slots that an execution triggers are not exhausted. -/
def Room (leds : LedActionSink) (starts : List LightingTransientStart) : Prop :=
  ∀ start ∈ starts, count leds start.id.slot + 1 < 2 ^ 64

/-- A created start is the latest of its slot, and newer than all before it. -/
theorem count_created (room : Room leds (created leds command nowUs epoch))
    (new : start ∈ created leds command nowUs epoch) :
    start.sequence = count (leds.record command nowUs epoch).1 start.id.slot ∧
      start.sequence = count leds start.id.slot + 1 := by
  have free := room start new
  obtain ⟨trigger, index, binding, hbinding, haction, rfl⟩ := mem_created.mp new
  unfold count at free ⊢
  rw [slot_start hbinding, hbinding] at free
  rw [record_bindings, slot_start hbinding, hbinding]
  constructor
  · simp [trigger, haction, TransientBinding.start]
  · exact nextSequence_eq free

/-- **A counter** counts up with a trigger, and stays otherwise. -/
theorem count_record (leds : LedActionSink) (command : ActionCommand)
    (nowUs : MonotonicTimestamp) (epoch : ℕ) (slot : Fin kMaxTransients) :
    count (leds.record command nowUs epoch).1 slot = count leds slot ∨
      ∃ start ∈ created leds command nowUs epoch, start.id.slot = slot := by
  cases hbinding : leds.transients.bindings[slot.val]? with
  | none =>
    left
    unfold count
    rw [record_bindings, hbinding]
    rfl
  | some binding =>
    by_cases triggered : command.kind = .trigger ∧ binding.action = command.action
    · exact Or.inr ⟨_, mem_created.mpr ⟨triggered.1, slot.val, binding, hbinding, triggered.2, rfl⟩,
        Fin.ext (slot_start hbinding)⟩
    · left
      unfold count
      rw [record_bindings, hbinding]
      change (ite _ _ _ : TransientBinding).sequence = _
      rw [if_neg triggered]
      rfl

/-- Triggers count up, and count no more than the starts that they create. -/
theorem count_record_le (room : Room leds (created leds command nowUs epoch))
    (slot : Fin kMaxTransients) :
    count leds slot ≤ count (leds.record command nowUs epoch).1 slot ∧
      count (leds.record command nowUs epoch).1 slot ≤
        count leds slot + tally (created leds command nowUs epoch) slot := by
  rcases count_record leds command nowUs epoch slot with same | ⟨start, new, rfl⟩
  · omega
  · obtain ⟨latest, newer⟩ := count_created room new
    have one := tally_pos new
    omega

/-- The bindings of an action create starts of distinct slots. -/
theorem created_nodup : ((created leds command nowUs epoch).map occurrence).Nodup := by
  refine List.Nodup.of_map (fun o => o.slot.val) ?_
  rw [List.map_map]
  unfold created
  split
  · have hle : leds.transients.bindings.length ≤ kMaxTransients := leds.transients.bounded
    rw [List.map_map]
    refine List.Nodup.sublist (List.Sublist.map _ List.filter_sublist) ?_
    have indices : leds.transients.bindings.zipIdx.map
        (((fun o : Occurrence => o.slot.val) ∘ occurrence) ∘
          fun entry => (entry.1.triggered nowUs epoch).start entry.2) =
        leds.transients.bindings.zipIdx.map Prod.snd := by
      refine List.map_congr_left fun entry hentry => ?_
      exact slot_start (List.mem_zipIdx_iff_getElem?.mp hentry)
    rw [indices, List.zipIdx_map_snd]
    exact List.nodup_range'
  · exact List.nodup_nil

/-- The start of a retained binding is the latest of its slot; it is created by the execution
unless it was retained before. -/
theorem retained_record {index : ℕ} {binding : TransientBinding}
    (hbinding : (leds.record command nowUs epoch).1.transients.bindings[index]? = some binding)
    (retained : binding.retained = true) :
    (binding.start index).sequence =
        count (leds.record command nowUs epoch).1 (binding.start index).id.slot ∧
      (binding.start index ∈ created leds command nowUs epoch ∨
        leds.transients.bindings[index]? = some binding) := by
  constructor
  · unfold count
    rw [slot_start hbinding, hbinding]
    rfl
  · rw [record_bindings] at hbinding
    obtain ⟨origin, horigin, rfl⟩ := Option.map_eq_some_iff.mp hbinding
    by_cases triggered : command.kind = .trigger ∧ origin.action = command.action
    · left
      rw [if_pos triggered]
      exact mem_created.mpr ⟨triggered.1, index, origin, horigin, triggered.2, rfl⟩
    · right
      rw [if_neg triggered]
      exact horigin

end Record

section

variable {T : Type*} [DecidableEq T] {s : Handoff T} {events : List Event}

/-- The starts of a recorded command come before those that were on their way. -/
theorem underway_record (s : Handoff T) (nowUs : MonotonicTimestamp) {command : ActionCommand}
    {epoch : ℕ} (execution : s.execution = some (command, epoch)) :
    ∃ snapshot older, underway (s.record nowUs).1 = snapshot ++ older ∧
      older.Sublist (underway s) ∧
      (snapshot.Pairwise fun newer older =>
        newer.id.slot = older.id.slot → older.sequence ≤ newer.sequence) ∧
      ∀ start ∈ snapshot, ∃ index, ∃ binding : TransientBinding,
        (s.leds.record command nowUs epoch).1.transients.bindings[index]? = some binding ∧
          binding.retained = true ∧ start = binding.start index := by
  have queued : (startsIn s.mailbox ++ startsIn s.worker.held).Sublist (underway s) :=
    List.sublist_append_right _ _
  unfold record
  rw [execution]
  dsimp only
  cases hpublishes : (s.leds.record command nowUs epoch).2 with
  | none =>
    refine ⟨[], underway s, rfl, List.Sublist.refl _, List.Pairwise.nil, ?_⟩
    exact fun _ h => absurd h List.not_mem_nil
  | some snapshot =>
    refine ⟨snapshot.transients.starts, _, ?_, queued, ?_, fun start hstart => ?_⟩
    · unfold underway
      dsimp only
      rw [Function.update_self]
      rfl
    · -- the starts of one snapshot have distinct slots
      have distinct := List.pairwise_map.mp snapshot.transients.slots_nodup
      exact distinct.imp fun hne hslot => absurd hslot hne
    · rw [record_snapshot hpublishes] at hstart
      obtain ⟨index, binding, hbinding, retained, -, rfl⟩ :=
        TransientBindings.mem_latest hstart
      exact ⟨index, binding, hbinding, retained, rfl⟩

/-- **A trigger**, or any other command, keeps the order. -/
theorem ordered_record (nowUs : MonotonicTimestamp) {command : ActionCommand} {epoch : ℕ}
    (execution : s.execution = some (command, epoch)) {before : List LightingTransientStart}
    (room : Room s.leds (created s.leds command nowUs epoch)) (ordered : Ordered s before) :
    Ordered (s.record nowUs).1 (before ++ created s.leds command nowUs epoch) := by
  obtain ⟨snapshot, older, hunderway, holder, distinct, latest⟩ :=
    underway_record s nowUs execution
  have hleds : (s.record nowUs).1.leds = (s.leds.record command nowUs epoch).1 := by
    unfold record
    rw [execution]
  have hrenderer : (s.record nowUs).1.renderer = s.renderer := by
    unfold record
    rw [execution]
  have counts := fun slot => (count_record_le room slot).1
  have known : ∀ (index : ℕ) (binding : TransientBinding),
      (s.leds.record command nowUs epoch).1.transients.bindings[index]? = some binding →
      binding.retained = true →
        binding.start index ∈ before ++ created s.leds command nowUs epoch := by
    intro index binding hbinding retained
    rcases (retained_record hbinding retained).2 with new | old
    · exact List.mem_append_right _ new
    · exact List.mem_append_left _ (ordered.retained index binding old retained)
  have newest : ∀ start ∈ snapshot, start.sequence =
      count (s.leds.record command nowUs epoch).1 start.id.slot := by
    intro start hstart
    obtain ⟨index, binding, hbinding, retained, rfl⟩ := latest start hstart
    exact (retained_record hbinding retained).1
  have counted : ∀ start ∈ before ++ created s.leds command nowUs epoch,
      start.sequence ≤ count (s.leds.record command nowUs epoch).1 start.id.slot := by
    intro start hstart
    rcases List.mem_append.mp hstart with old | new
    · exact (ordered.counted start old).trans (counts start.id.slot)
    · exact Nat.le_of_eq (count_created room new).1
  have recorded : ∀ slot, (s.renderer.transients slot).sequence ≤
      count (s.leds.record command nowUs epoch).1 slot :=
    fun slot => (ordered.recorded slot).trans (counts slot)
  refine
    { others := fun t => ?_
      order := ?_
      known := fun start hstart => ?_
      ahead := fun start hstart => ?_
      recorded := by rw [hleds, hrenderer]; exact recorded
      counted := by rw [hleds]; exact counted
      tallied := fun slot => by
        rw [hleds, tally_append]
        exact (count_record_le room slot).2.trans (Nat.add_le_add_right (ordered.tallied slot) _)
      distinct := ?_
      retained := by rw [hleds]; exact known
      listed := by rw [hrenderer]; exact ordered.listed
      runs := fun slot active => ?_ }
  · unfold record
    rw [execution]
    dsimp only
    split
    · exact ordered.others t
    · dsimp only
      rw [Function.update_of_ne (Option.some_ne_none t)]
      exact ordered.others t
  · rw [hunderway, List.pairwise_append]
    refine ⟨distinct, ordered.order.sublist holder, fun newer hnewer old hold hslot => ?_⟩
    rw [newest newer hnewer, hslot]
    exact counted old (List.mem_append_left _ (ordered.known old (holder.subset hold)))
  · rw [hunderway] at hstart
    rcases List.mem_append.mp hstart with new | old
    · obtain ⟨index, binding, hbinding, retained, rfl⟩ := latest start new
      exact known index binding hbinding retained
    · exact List.mem_append_left _ (ordered.known start (holder.subset old))
  · rw [hunderway] at hstart
    rw [hrenderer]
    rcases List.mem_append.mp hstart with new | old
    · rw [newest start new]
      exact recorded start.id.slot
    · exact ordered.ahead start (holder.subset old)
  · -- a created start is newer than every start before it
    rw [List.map_append, List.nodup_append]
    refine ⟨ordered.distinct, created_nodup, fun o ho o' ho' same => ?_⟩
    obtain ⟨old, hold, rfl⟩ := List.mem_map.mp ho
    obtain ⟨new, hnew, rfl⟩ := List.mem_map.mp ho'
    have hlt := Nat.lt_of_lt_of_eq (Nat.lt_succ_self _) (count_created room hnew).2.symm
    have hle := ordered.counted old hold
    rw [show old.id.slot = new.id.slot from congrArg Occurrence.slot same,
      show old.sequence = new.sequence from congrArg Occurrence.sequence same] at hle
    exact absurd hle (Nat.not_le_of_lt hlt)
  · rw [hrenderer] at active ⊢
    obtain ⟨start, hstart, hruns⟩ := ordered.runs slot active
    exact ⟨start, List.mem_append_left _ hstart, hruns⟩

end

/-! ### The worker -/

variable (r : RendererController)

section

variable {T : Type*} {s : Handoff T} {before : List LightingTransientStart}
  {events : List Event}

/-- The state once the worker has finished a pass with a renderer. -/
def worked (s : Handoff T) (renderer : RendererController) (worker : Worker) : Handoff T :=
  { s with renderer, worker }

/-- A tick keeps the order. -/
theorem ordered_tick (ordered : Ordered s before) (idle : s.worker.held = none)
    (nowUs : MonotonicTimestamp) (sink : SinkAnswers) {worker : Worker}
    (next : worker.held = none) :
    Ordered (worked s (s.renderer.tick sink nowUs).renderer worker) before := by
  have same : underway (worked s (s.renderer.tick sink nowUs).renderer worker) = underway s := by
    unfold underway worked
    rw [idle, next]
  have sequences : ∀ slot, ((s.renderer.tick sink nowUs).renderer.transients slot).sequence =
      (s.renderer.transients slot).sequence := fun slot => (tick_keeps ordered.listed slot).1
  refine
    { others := ordered.others
      order := by rw [same]; exact ordered.order
      known := by rw [same]; exact ordered.known
      ahead := fun start hstart => ?_
      recorded := fun slot => (sequences slot).trans_le (ordered.recorded slot)
      counted := ordered.counted
      tallied := ordered.tallied
      distinct := ordered.distinct
      retained := ordered.retained
      listed := listed_tick ordered.listed
      runs := fun slot active => ?_ }
  · rw [same] at hstart
    exact (sequences _).trans_le (ordered.ahead start hstart)
  · obtain ⟨start, hstart, hruns⟩ :=
      ordered.runs slot ((tick_keeps ordered.listed slot).2 active)
    exact ⟨start, hstart, hruns.trans (congrArg (Occurrence.mk slot) (sequences slot).symm)⟩

/-- A fresh command leaves in a slot the sequence that it lists, or the one before. -/
theorem accept_sequence (command : LightingCommand) (nowUs : MonotonicTimestamp) (epoch : ℕ)
    (slot : Fin kMaxTransients) :
    ((∀ start ∈ command.transients.starts, start.id.slot ≠ slot) ∧
      ((r.accept command nowUs epoch).transients slot).sequence =
        (r.transients slot).sequence ∧
      ((r.accept command nowUs epoch).transients slot).active = false) ∨
    ∃ start ∈ command.transients.starts, start.id.slot = slot ∧
      ((r.accept command nowUs epoch).transients slot).sequence = start.sequence := by
  rcases @RendererController.accept_timing r nowUs command epoch slot with
    ⟨unlisted, hstopped⟩ | ⟨start, hstart, hslot, ⟨hseen, hkept⟩ | ⟨-, hrecorded⟩⟩
  · left
    rw [hstopped]
    exact ⟨unlisted, rfl, rfl⟩
  · refine Or.inr ⟨start, hstart, hslot, ?_⟩
    rcases hkept with hstopped | ⟨-, hsame⟩
    · rw [hstopped]
      exact hseen
    · rw [hsame]
      exact hseen
  · refine Or.inr ⟨start, hstart, hslot, ?_⟩
    rw [hrecorded]

/-- The application of the command that the worker holds keeps the order. -/
theorem ordered_accept (ordered : Ordered s before) {command : LightingCommand}
    (received : s.worker = .received command) (nowUs : MonotonicTimestamp) (epoch : ℕ) :
    Ordered (worked s (s.renderer.accept command nowUs epoch) .waiting) before := by
  have split : underway s =
      underway (worked s (s.renderer.accept command nowUs epoch) .waiting) ++
        command.transients.starts := by
    unfold underway worked
    rw [received]
    simp [startsIn, Worker.held]
  obtain ⟨hnewer, -, hacross⟩ := List.pairwise_append.mp (split ▸ ordered.order)
  have older : ∀ start ∈ command.transients.starts, start ∈ underway s := fun start hstart =>
    split ▸ List.mem_append_right _ hstart
  have newer : ∀ start ∈ underway (worked s (s.renderer.accept command nowUs epoch) .waiting),
      start ∈ underway s := fun start hstart => split ▸ List.mem_append_left _ hstart
  refine
    { others := ordered.others
      order := hnewer
      known := fun start hstart => ordered.known start (newer start hstart)
      ahead := fun start hstart => ?_
      recorded := fun slot => ?_
      counted := ordered.counted
      tallied := ordered.tallied
      distinct := ordered.distinct
      retained := ordered.retained
      listed := RendererController.listed_accept command epoch
      runs := fun slot active => ?_ }
  · -- what the command records is not newer than what follows it
    change ((s.renderer.accept command nowUs epoch).transients start.id.slot).sequence ≤ _
    rcases accept_sequence s.renderer command nowUs epoch start.id.slot with
      ⟨-, hsame, -⟩ | ⟨listed, hlisted, hslot, hsequence⟩
    · rw [hsame]
      exact ordered.ahead start (newer start hstart)
    · rw [hsequence]
      exact hacross start hstart listed hlisted hslot.symm
  · change ((s.renderer.accept command nowUs epoch).transients slot).sequence ≤ count s.leds slot
    rcases accept_sequence s.renderer command nowUs epoch slot with
      ⟨-, hsame, -⟩ | ⟨listed, hlisted, rfl, hsequence⟩
    · rw [hsame]
      exact ordered.recorded slot
    · rw [hsequence]
      exact ordered.counted listed (ordered.known listed (older listed hlisted))
  · change ((s.renderer.accept command nowUs epoch).transients slot).active = true at active
    change ∃ start ∈ before, occurrence start =
      ⟨slot, ((s.renderer.accept command nowUs epoch).transients slot).sequence⟩
    rcases accept_sequence s.renderer command nowUs epoch slot with
      ⟨-, -, inactive⟩ | ⟨listed, hlisted, rfl, hsequence⟩
    · rw [inactive] at active
      cases active
    · rw [hsequence]
      exact ⟨listed, ordered.known listed (older listed hlisted), rfl⟩

theorem held_after (faulted : Bool) :
    (if faulted then Worker.faulted else Worker.waiting).held = none := by
  cases faulted <;> rfl

/-- A pass adds its frame to the history. -/
theorem startsOf_rendered (pass : Pass) :
    startsOf (events ++ [.rendered pass]) = startsOf events := by
  simp [startsOf]

theorem passesOf_rendered (pass : Pass) :
    passesOf (events ++ [.rendered pass]) = passesOf events ++ [pass] := by
  simp [passesOf]

theorem startsOf_quiet : startsOf (events ++ [.quiet]) = startsOf events := by
  simp [startsOf]

theorem passesOf_quiet : passesOf (events ++ [.quiet]) = passesOf events := by
  simp [passesOf]

/-- A step that creates and draws nothing keeps the progress of every occurrence. -/
theorem Witnessed.quiet {s' : Handoff T} (witnessed : Witnessed s events)
    (ordered : Ordered s' (startsOf events)) (renderer : s'.renderer = s.renderer) :
    Witnessed s' (events ++ [.quiet]) := by
  refine ⟨?_, ?_, ?_⟩
  · rw [startsOf_quiet]
    exact ordered
  · rw [startsOf_quiet, passesOf_quiet, renderer]
    exact witnessed.progress
  · rw [startsOf_quiet, passesOf_quiet]
    exact witnessed.known

/-- A pass keeps the progress of every occurrence. -/
theorem Witnessed.rendered {s' : Handoff T} {pass : Pass} (witnessed : Witnessed s events)
    (ordered : Ordered s' (startsOf events))
    (progress : ∀ start ∈ startsOf events,
      Progress start s'.renderer (passesOf events ++ [pass]))
    (known : ∀ o, pass.applies o ∨ o ∈ pass.drawn →
      ∃ start ∈ startsOf events, occurrence start = o) :
    Witnessed s' (events ++ [.rendered pass]) := by
  refine ⟨?_, ?_, ?_⟩
  · rw [startsOf_rendered]
    exact ordered
  · rw [startsOf_rendered, passesOf_rendered]
    exact progress
  · rw [startsOf_rendered, passesOf_rendered]
    intro p hp o h
    rcases List.mem_append.mp hp with hp | hp
    · exact witnessed.known p hp o h
    · rw [List.mem_singleton.mp hp] at h
      exact known o h

/-- **A step of the worker** keeps the order and the progress. -/
theorem witnessed_work (witnessed : Witnessed s events) (nowUs : MonotonicTimestamp)
    (sink : SinkAnswers) :
    Witnessed (s.work nowUs sink).1 (events ++ [(s.work nowUs sink).2]) := by
  have ordered := witnessed.ordered
  -- what a settled renderer draws was created
  have drawnKnown : ∀ {s' : Handoff T}, Ordered s' (startsOf events) →
      ∀ o ∈ drawn (s'.renderer.settleTransients nowUs) nowUs,
        ∃ start ∈ startsOf events, occurrence start = o := by
    intro s' ordered' o drew
    obtain ⟨live, hsequence⟩ := live_of_drawn drew
    obtain ⟨start, hstart, hruns⟩ := ordered'.runs o.slot (Timing.live_iff.mp live).1
    rw [hsequence] at hruns
    exact ⟨start, hstart, hruns⟩
  unfold work
  split
  · rename_i command hworker hmailbox
    refine witnessed.quiet (ordered.of_sublist ordered.others ?_ rfl (fun _ => rfl)
      fun _ _ h _ => h) rfl
    unfold underway
    rw [hworker, hmailbox]
    simp [startsIn, Worker.held]
  · rename_i hworker hmailbox
    have idle : s.worker.held = none := by
      rw [hworker]
      rfl
    refine witnessed.rendered (ordered_tick ordered idle nowUs sink (held_after _))
      (fun start hstart => progress_tick ordered.listed (witnessed.progress start hstart)) ?_
    rintro o (⟨command, epoch, happlied, -⟩ | drew)
    · cases happlied
    · exact drawnKnown ordered o drew
  · rename_i command hworker
    have inCommand : ∀ start ∈ command.transients.starts, start ∈ underway s := by
      intro start hstart
      unfold underway
      rw [hworker]
      exact List.mem_append_right _ (List.mem_append_right _ hstart)
    have accepted := ordered_accept ordered hworker nowUs s.gate.1.epoch.toNat
    refine witnessed.rendered (ordered_tick accepted rfl nowUs sink (held_after _))
      (fun start hstart => progress_apply ?_ ?_ (witnessed.progress start hstart)) ?_
    · intro other hother same
      exact ordered.unique hstart (ordered.known other (inCommand other hother)) same
    · exact fun other hother => ordered.ahead other (inCommand other hother)
    · rintro o (⟨command', epoch, happlied, start, hstart, rfl⟩ | drew)
      · obtain ⟨rfl, -⟩ := Prod.mk.inj (Option.some.inj happlied)
        exact ⟨start, ordered.known start (inCommand start hstart), rfl⟩
      · exact drawnKnown accepted o drew
  · rename_i hworker
    refine witnessed.quiet (ordered.of_sublist ordered.others ?_ rfl (fun _ => rfl)
      fun _ _ h _ => h) rfl
    unfold underway
    rw [hworker]
    exact List.Sublist.refl _

variable [DecidableEq T]

/-- No binding is triggered so often that its sequences repeat. -/
def FewTriggers (events : List Event) : Prop :=
  ∀ slot, tally (startsOf events) slot < 2 ^ 64

theorem FewTriggers.of_append {events' : List Event} (few : FewTriggers (events ++ events')) :
    FewTriggers events := by
  intro slot
  have all := few slot
  rw [startsOf, List.flatMap_append, tally_append] at all
  exact Nat.lt_of_le_of_lt (Nat.le_add_right _ _) all

/-- **A step of the engine's thread** outside the gate keeps the order and the progress. An
occurrence that it creates is newer than all that the renderer has seen. -/
theorem witnessed_record (witnessed : Witnessed s events) (nowUs : MonotonicTimestamp)
    (few : FewTriggers (events ++ [(s.record nowUs).2])) :
    Witnessed (s.record nowUs).1 (events ++ [(s.record nowUs).2]) := by
  have ordered := witnessed.ordered
  cases execution : s.execution with
  | none =>
    have idle : s.record nowUs = (s, .quiet) := by
      unfold record
      rw [execution]
    rw [idle]
    exact witnessed.quiet ordered rfl
  | some underExecution =>
    obtain ⟨command, epoch⟩ := underExecution
    have hevent : (s.record nowUs).2 = .triggered (created s.leds command nowUs epoch) := by
      unfold record
      rw [execution]
    have hrenderer : (s.record nowUs).1.renderer = s.renderer := by
      unfold record
      rw [execution]
    have hstarts : startsOf (events ++ [.triggered (created s.leds command nowUs epoch)]) =
        startsOf events ++ created s.leds command nowUs epoch := by
      simp [startsOf]
    have hpasses : passesOf (events ++ [.triggered (created s.leds command nowUs epoch)]) =
        passesOf events := by
      simp [passesOf]
    have room : Room s.leds (created s.leds command nowUs epoch) := by
      intro start new
      have all := few start.id.slot
      rw [hevent, hstarts, tally_append] at all
      have counts := ordered.tallied start.id.slot
      have one := tally_pos new
      omega
    rw [hevent]
    refine ⟨?_, ?_, ?_⟩
    · rw [hstarts]
      exact ordered_record nowUs execution room ordered
    · rw [hstarts, hpasses, hrenderer]
      intro start hstart
      rcases List.mem_append.mp hstart with old | new
      · exact witnessed.progress start old
      · have hnewer : count s.leds start.id.slot < start.sequence :=
          Nat.lt_of_lt_of_eq (Nat.lt_succ_self _) (count_created room new).2.symm
        have unknown : ∀ pass ∈ passesOf events,
            ¬ (pass.applies (occurrence start) ∨ occurrence start ∈ pass.drawn) := by
          intro pass hpass seen
          obtain ⟨old, hold, same⟩ := witnessed.known pass hpass _ seen
          have hcounted := ordered.counted old hold
          have sameSlot : old.id.slot = start.id.slot := congrArg Occurrence.slot same
          have sameSequence : old.sequence = start.sequence := congrArg Occurrence.sequence same
          rw [sameSlot, sameSequence] at hcounted
          exact absurd hcounted (Nat.not_le_of_lt hnewer)
        refine .unseen ((ordered.recorded start.id.slot).trans_lt hnewer) fun pass hpass => ?_
        exact not_or.mp (unknown pass hpass)
    · rw [hstarts, hpasses]
      intro pass hpass o seen
      obtain ⟨start, hstart, same⟩ := witnessed.known pass hpass o seen
      exact ⟨start, List.mem_append_left _ hstart, same⟩

/-- **One step** keeps the order and the progress. -/
theorem witnessed_step (witnessed : Witnessed s events) (move : Move T)
    (few : FewTriggers (events ++ [(s.step move).2])) :
    Witnessed (s.step move).1 (events ++ [(s.step move).2]) := by
  cases move with
  | execute command =>
    change Witnessed (s.execute command) (events ++ [.quiet])
    unfold execute
    split
    · exact witnessed.quiet (witnessed.ordered.of_sublist witnessed.ordered.others
        (List.Sublist.refl _) rfl (fun _ => rfl) fun _ _ h _ => h) rfl
    · exact witnessed.quiet witnessed.ordered rfl
  | record nowUs => exact witnessed_record witnessed nowUs few
  | gate thread choice =>
    refine witnessed.quiet (ordered_pass witnessed.ordered thread choice) ?_
    change (s.pass thread choice).renderer = s.renderer
    unfold Handoff.pass
    split <;> rfl
  | worker nowUs sink => exact witnessed_work witnessed nowUs sink

end

/-! ### Every run -/

section Runs

variable {T : Type*}

/-- A configured adapter has triggered nothing. -/
theorem configured_fresh :
    ∀ binding ∈ (LedActionSink.configured registrations).transients.bindings,
      binding.retained = false ∧ binding.sequence = 0 := by
  refine List.foldlRecOn registrations LedActionSink.register
    (motive := fun leds : LedActionSink =>
      ∀ binding ∈ leds.transients.bindings, binding.retained = false ∧ binding.sequence = 0) ?_ ?_
  · exact fun _ h => absurd h List.not_mem_nil
  · intro leds fresh registration _
    cases registration with
    | effect action effect priority => exact fresh
    | fill action effect => exact fresh
    | transient action effect pixelCount =>
      intro binding hbinding
      have hbind := Table.bindings_bind leds.transients action (invalidTransient effect pixelCount)
        (·.drives action effect.zone) { action, effect }
      change binding ∈ (Table.bind leds.transients action (invalidTransient effect pixelCount)
        (·.drives action effect.zone) { action, effect }).1.bindings at hbinding
      rcases hbind with hsame | happended
      · rw [hsame] at hbinding
        exact fresh binding hbinding
      · rw [happended] at hbinding
        rcases List.mem_append.mp hbinding with old | new
        · exact fresh binding old
        · rw [List.mem_singleton.mp new]
          exact ⟨rfl, rfl⟩

theorem witnessed_started (sink : SinkAnswers) : Witnessed (started T registrations r sink) [] := by
  have timing : ∀ slot, ((r.start sink).renderer.transients slot).sequence = 0 ∧
      ((r.start sink).renderer.transients slot).active = false := by
    intro slot
    have hwritten := (RendererController.written_timing
      { r with
        hasCommand := false
        hasLastWritten := false
        faulted := false
        animationStartedUs := 0
        lastTickUs := 0
        transients := fun _ => {}
        transientEpoch := 0 } sink kBlackFrame).2.2.2 slot
    have hstart : (r.start sink).renderer.transients slot = _ := hwritten
    rw [hstart]
    split <;> exact ⟨rfl, rfl⟩
  have idle : ∀ start, start ∉ underway (started T registrations r sink) :=
    fun _ => List.not_mem_nil
  refine ⟨?_, fun _ h => absurd h List.not_mem_nil, fun _ h => absurd h List.not_mem_nil⟩
  exact
    { others := fun _ => rfl
      order := List.Pairwise.nil
      known := fun start h => absurd h (idle start)
      ahead := fun start h => absurd h (idle start)
      recorded := fun slot => by
        change ((r.start sink).renderer.transients slot).sequence ≤ _
        rw [(timing slot).1]
        exact Nat.zero_le _
      counted := fun _ h => absurd h List.not_mem_nil
      tallied := fun slot => by
        change ((LedActionSink.configured registrations).transients.bindings[slot.val]?).elim 0
          TransientBinding.sequence ≤ 0
        cases hbinding :
            (LedActionSink.configured registrations).transients.bindings[slot.val]? with
        | none => exact le_refl _
        | some binding =>
          have fresh := configured_fresh registrations binding (List.mem_of_getElem? hbinding)
          exact fresh.2.le
      distinct := List.nodup_nil
      retained := fun index binding hbinding retained => by
        have fresh := configured_fresh registrations binding (List.mem_of_getElem? hbinding)
        rw [fresh.1] at retained
        cases retained
      listed := fun slot active => by
        change ((r.start sink).renderer.transients slot).active = true at active
        rw [(timing slot).2] at active
        cases active
      runs := fun slot active => by
        change ((r.start sink).renderer.transients slot).active = true at active
        rw [(timing slot).2] at active
        cases active }

variable [DecidableEq T]

theorem witnessed_after (sink : SinkAnswers) (moves : List (Move T)) :
    FewTriggers (history (started T registrations r sink) moves) →
    Witnessed (after step (started T registrations r sink) moves)
      (history (started T registrations r sink) moves) := by
  refine invariant (P := fun (s : Handoff T) trace =>
      FewTriggers (trace.map Prod.snd) → Witnessed s (trace.map Prod.snd))
    (fun _ => witnessed_started registrations r sink) ?_ moves
  intro s trace move ih few
  rw [List.map_append] at few ⊢
  exact witnessed_step (ih few.of_append) move few

/-- A transient of five seconds on the last pixel of the longest strip. -/
def accent : Registration :=
  .transient ⟨1⟩ {
    zone := { start := kMaxLedCount - 1, length := 1 }
    color := ⟨0, 0, 16⟩
    durationUs := kMaxTransientDurationUs } kMaxLedCount

/-- A trigger at time zero whose snapshot is applied 4.9 seconds later, and a tick at six
seconds. -/
def delayedRun : List (Move Empty) :=
  .execute { action := ⟨1⟩, kind := .trigger } :: .record 0 ::
    List.replicate 7 (.gate none (.answer true)) ++
    [.worker 0 fun _ => true, .worker 4900000 fun _ => true, .worker 6000000 fun _ => true]

/-- The history of that run on a strip that takes every frame. -/
def delayedHistory : List Event :=
  history (started Empty [accent] { pixelCount := kMaxLedCount } fun _ => true) delayedRun

theorem few_delayed : FewTriggers delayedHistory := by
  unfold FewTriggers
  decide +kernel

theorem drawn_delayed : ∃ start ∈ startsOf delayedHistory, ∃ pass ∈ passesOf delayedHistory,
    occurrence start ∈ pass.drawn ∧ start.originUs = 0 ∧ pass.nowUs = 6000000 := by
  decide +kernel

/-- **Transients are shown at most once.** In every interleaving of the engine's commands, of the
publications through the gate and the queue, of the other threads' fail-offs and of the worker's
passes, with any clock readings and any answers, in which no binding is triggered 2^64 times: each
trigger creates occurrences of its own; the passes that draw an occurrence are one interval, which
begins at the first application of the occurrence, under the epoch of its trigger and while its age
is below its duration, and ends before the occurrence expires, is cancelled or meets another epoch,
and with the first fault; and the passes draw nothing else. -/
theorem transients_shown_once (registrations : List Registration) (r : RendererController)
    (sink : SinkAnswers) (moves : List (Move T)) :
    let events := history (started T registrations r sink) moves
    FewTriggers events →
    (∀ start ∈ startsOf events, ShownOnce start (passesOf events)) ∧
    ((startsOf events).map occurrence).Nodup ∧
    ∀ pass ∈ passesOf events, ∀ o ∈ pass.drawn, ∃ start ∈ startsOf events,
      occurrence start = o := by
  intro events few
  have witnessed := witnessed_after registrations r sink moves few
  refine ⟨fun start hstart => (witnessed.progress start hstart).shownOnce,
    witnessed.ordered.distinct, fun pass hpass o drew => ?_⟩
  exact witnessed.known pass hpass o (Or.inr drew)

theorem transients_shown_once_delayed :
    ∃ start ∈ startsOf delayedHistory, ShownOnce start (passesOf delayedHistory) ∧
      ∃ pass ∈ passesOf delayedHistory, occurrence start ∈ pass.drawn := by
  obtain ⟨start, hstart, pass, hpass, drew, -⟩ := drawn_delayed
  have shown := transients_shown_once [accent] { pixelCount := kMaxLedCount } (fun _ => true)
    delayedRun few_delayed
  exact ⟨start, hstart, shown.1 start hstart, pass, hpass, drew⟩

/-! ### A repeated sequence -/

/-- The engine's thread triggers the accent and publishes the snapshot. -/
def retrigger : List (Move Empty) :=
  .execute { action := ⟨1⟩, kind := .trigger } :: .record 0 ::
    List.replicate 7 (.gate none (.answer true))

/-- The worker takes the latest snapshot and applies it. -/
def delivery : List (Move Empty) := List.replicate 2 (.worker 0 fun _ => true)

def startedAccent : Handoff Empty :=
  .started Empty [accent] { pixelCount := kMaxLedCount } fun _ => true

/-- The adapter between two publications, with the sequence that the accent has reached. -/
def atSequence (sequence : ℕ) (retained : Bool) : LedActionSink where
  effects := default
  fills := default
  transients := ⟨[{
    action := ⟨1⟩
    effect := {
      zone := { start := kMaxLedCount - 1, length := 1 }
      color := ⟨0, 0, 16⟩
      durationUs := kMaxTransientDurationUs }
    sequence
    retained }], Nat.succ_le_of_lt (by decide)⟩

/-- Nothing is under way, and the gate is open in its first epoch. -/
structure AtSequence (sequence : ℕ) (s : Handoff Empty) : Prop where
  leds : ∃ retained, s.leds = atSequence sequence retained
  execution : s.execution = none
  opened : s.gate.1.state = .opened
  epoch : s.gate.1.epoch = 0
  idle : s.gate.2 none = .idle
  worker : s.worker = .waiting

/-- The snapshot of the adapter. -/
def snapshotAt (sequence : ℕ) : LightingCommand :=
  heldCommand default default (atSequence sequence true).transients 0

theorem passes_append (s : Handoff Empty) (moves moves' : List (Move Empty)) :
    passesOf (history s (moves ++ moves')) =
      passesOf (history s moves) ++ passesOf (history (after step s moves) moves') := by
  rw [history, trace_append, List.map_append, passesOf, List.filterMap_append]
  rfl

/-- The move is a step of the worker. -/
def Move.works : Move Empty → Bool
  | .worker .. => true
  | _ => false

/-- Without a step of the worker, the renderer keeps its state and makes no pass. -/
theorem renderer_unworked {moves : List (Move Empty)} (idle : ∀ move ∈ moves, move.works = false)
    (s : Handoff Empty) :
    (after step s moves).renderer = s.renderer ∧ passesOf (history s moves) = [] := by
  induction moves generalizing s with
  | nil => exact ⟨rfl, rfl⟩
  | cons move moves ih =>
    have one : (s.step move).1.renderer = s.renderer ∧ passesOf (history s [move]) = [] := by
      cases move with
      | execute command =>
        change (s.execute command).renderer = s.renderer ∧ _
        unfold execute
        split <;> exact ⟨rfl, rfl⟩
      | record nowUs =>
        change (s.record nowUs).1.renderer = s.renderer ∧ passesOf [(s.record nowUs).2] = []
        unfold record
        split <;> exact ⟨rfl, rfl⟩
      | gate thread choice =>
        change (s.pass thread choice).renderer = s.renderer ∧ _
        unfold Handoff.pass
        split <;> exact ⟨rfl, rfl⟩
      | worker nowUs sink => exact Bool.noConfusion (idle _ List.mem_cons_self)
    have rest := ih (fun other mem => idle other (List.mem_cons_of_mem _ mem)) (s.step move).1
    refine ⟨rest.1.trans one.1, ?_⟩
    exact (passes_append s [move] moves).trans (by rw [one.2]; exact rest.2)

theorem retrigger_idle : ∀ move ∈ retrigger, move.works = false := by
  decide

section Publication

variable {T : Type*} [DecidableEq T] {leds : LedActionSink} {execution : Option (ActionCommand × ℕ)}
  {gate : Gate} {places : Option T → Place} {mailbox : Option LightingCommand} {worker : Worker}
  {renderer : RendererController}

/-- A step of the engine's thread in the gate. -/
theorem step_publisher {place : Place} (inside : place ≠ .idle) :
    (⟨leds, execution, (gate, Function.update places none place), mailbox, worker, renderer⟩ :
      Handoff T).step (.gate none (.answer true)) =
      (⟨published leds place, execution, ((act gate place (.answer true)).1,
        Function.update places none (act gate place (.answer true)).2),
        (handed place (.answer true)).or mailbox, worker, renderer⟩, .quiet) := by
  have allowed : permitted true place (.answer true) = true := by
    cases place <;> first | rfl | exact absurd rfl inside
  simp [Handoff.step, Handoff.pass, Threads.step, allowed]

end Publication

/-- **A trigger** from rest publishes the next sequence. -/
theorem retrigger_step {sequence : ℕ} (resting : AtSequence sequence s) :
    AtSequence (nextSequence sequence) (after step s retrigger) ∧
      (after step s retrigger).mailbox = some (snapshotAt (nextSequence sequence)) := by
  obtain ⟨leds, execution, ⟨gate, places⟩, mailbox, worker, renderer⟩ := s
  obtain ⟨⟨retained, hleds⟩, hexecution, hopened, hepoch, hidle, hworker⟩ := resting
  obtain rfl : leds = atSequence sequence retained := hleds
  obtain rfl : execution = none := hexecution
  obtain rfl : worker = .waiting := hworker
  replace hidle : places none = .idle := hidle
  replace hepoch : gate.epoch = 0 := hepoch
  have recorded : after step ⟨atSequence sequence retained, none, (gate, places), mailbox, .waiting,
      renderer⟩ (retrigger.take 2) =
      ⟨atSequence (nextSequence sequence) true, none,
        (gate, Function.update places none (.enter (snapshotAt (nextSequence sequence)))), mailbox,
        .waiting, renderer⟩ := by
    simp only [after, retrigger, List.take, List.foldl_cons, List.foldl_nil, Handoff.step, execute,
      record, hidle, hepoch]
    rfl
  rw [← List.take_append_drop 2 retrigger, after_append, recorded]
  replace hopened : gate.state = .opened := hopened
  simp only [after, retrigger, List.drop, List.replicate, List.foldl_cons, List.foldl_nil,
    step_publisher, act, hopened, handed, published, Gate.deliver, ne_eq, reduceCtorEq,
    not_false_eq_true, if_true, Option.none_or, Option.some_or]
  refine ⟨⟨⟨true, rfl⟩, rfl, rfl, hepoch, ?_, rfl⟩, trivial⟩
  exact Function.update_self none Place.idle places

/-- Triggers count up as long as the counter has room. -/
theorem retrigger_rounds {sequence : ℕ} (resting : AtSequence sequence s) (rounds : ℕ)
    (room : sequence + rounds < 2 ^ 64) :
    AtSequence (sequence + rounds)
      (after step s (List.replicate rounds retrigger).flatten) := by
  induction rounds generalizing sequence s with
  | zero => exact resting
  | succ rounds ih =>
    rw [List.replicate_succ, List.flatten_cons, after_append]
    have one := (retrigger_step resting).1
    rw [nextSequence_eq (by omega)] at one
    have rest := ih one (by omega)
    rwa [Nat.add_right_comm, Nat.add_assoc] at rest

/-- A frame that the strip takes is the one last written, whether it was so before or not. -/
theorem writeDesired_accepted (r : RendererController) (desired : PixelFrame) :
    (r.writeDesired (fun _ => true) desired).renderer =
        { r with lastWritten := desired, hasLastWritten := true } ∧
      (r.writeDesired (fun _ => true) desired).result = true := by
  unfold RendererController.writeDesired
  split
  · next same =>
    cases r
    obtain ⟨rfl, rfl⟩ := same
    exact ⟨rfl, rfl⟩
  · exact ⟨rfl, rfl⟩

theorem applyPass_accepted (r : RendererController) (command : LightingCommand)
    (nowUs : MonotonicTimestamp) (epoch : ℕ) :
    applyPass r command nowUs epoch (fun _ => true) =
      let r := (r.accept command nowUs epoch).settleTransients nowUs
      let desired := if r.shows nowUs then r.drawFrame nowUs kBlackFrame else kBlackFrame
      ({ r with desired, lastWritten := desired, hasLastWritten := true },
        ⟨some (command, epoch), nowUs, drawn r nowUs, true⟩) :=
  Prod.ext (writeDesired_accepted _ _).1 (congrArg (Pass.mk _ _ _) (writeDesired_accepted _ _).2)

/-- The renderer after it has shown the snapshot of a sequence, with its pass. -/
def shownAfter (r : RendererController) (sequence : ℕ) : RendererController × Pass :=
  applyPass r (snapshotAt sequence) 0 0 fun _ => true

/-- A trigger whose snapshot the worker shows. -/
def showing : List (Move Empty) := retrigger ++ delivery

/-- **A trigger that is shown**: the pass is that of the next sequence, and unless it meets a fault,
nothing is under way after it. -/
theorem showing_step {sequence : ℕ} (resting : AtSequence sequence s) :
    passesOf (history s showing) = [(shownAfter s.renderer (nextSequence sequence)).2] ∧
      (after step s showing).renderer =
        (shownAfter s.renderer (nextSequence sequence)).1 ∧
      ((shownAfter s.renderer (nextSequence sequence)).1.faulted = false →
        AtSequence (nextSequence sequence) (after step s showing)) := by
  have unworked := renderer_unworked retrigger_idle s
  obtain ⟨triggered, hmailbox⟩ := retrigger_step resting
  rw [showing, passes_append, unworked.2, List.nil_append, ← unworked.1, after_append]
  generalize after step s retrigger = s' at triggered hmailbox ⊢
  obtain ⟨leds, execution, ⟨⟨state, inFlight, epoch, delivered⟩, places⟩, mailbox, worker,
    renderer⟩ := s'
  obtain ⟨hleds, hexecution, hopened, hepoch, hidle, hworker⟩ := triggered
  cases hmailbox
  cases hworker
  cases hepoch
  refine ⟨rfl, rfl, fun unfaulted => ⟨hleds, hexecution, hopened, rfl, hidle, ?_⟩⟩
  exact if_neg (ne_true_of_eq_false unfaulted)

/-- An occurrence that a pass leaves out is over. -/
theorem ShownOnce.over {first second third : Pass} (once : ShownOnce start [first, second, third])
    (drew : occurrence start ∈ first.drawn) (paused : occurrence start ∉ second.drawn) :
    occurrence start ∉ third.drawn := by
  rcases once with none | ⟨startedUs, epoch, interval, after, hsplit, showing, gone⟩
  · exact absurd drew (none first List.mem_cons_self)
  obtain ⟨before, begun, later, rfl, -, begins, continues, -⟩ := showing
  cases before with
  | cons pass before =>
    cases (List.cons.inj hsplit).1
    exact absurd drew (begins.fresh _ List.mem_cons_self).2
  | nil =>
    cases later with
    | cons pass later =>
      cases (List.cons.inj (List.cons.inj hsplit).2).1
      exact absurd (continues _ (List.mem_cons_of_mem _ List.mem_cons_self)).drawn paused
    | nil =>
      have htail : [second, third] = after := (List.cons.inj hsplit).2
      exact gone third (htail ▸ List.mem_cons_of_mem _ List.mem_cons_self)

/-- The accent is shown twice; it is triggered until its counter is exhausted; and it is shown once
more. -/
def wrappedRun : List (Move Empty) :=
  (showing ++ showing) ++ ((List.replicate (2 ^ 64 - 3) retrigger).flatten ++ showing)

def wrappedHistory : List Event := history startedAccent wrappedRun

def firstShown : Occurrence := ⟨⟨0, by decide⟩, 1⟩

theorem firstShown_created : ∃ start ∈ startsOf (history startedAccent showing),
    occurrence start = firstShown := by
  decide +kernel

def firstPass : RendererController × Pass := shownAfter startedAccent.renderer 1

def secondPass : RendererController × Pass := shownAfter firstPass.1 2

def thirdPass : RendererController × Pass := shownAfter secondPass.1 1

/-- The renderer shows the first occurrence, then the second, and then the first again. -/
theorem shown_again :
    (firstPass.1.faulted = false ∧ firstShown ∈ firstPass.2.drawn) ∧
    (secondPass.1.faulted = false ∧ firstShown ∉ secondPass.2.drawn) ∧
    firstShown ∈ thirdPass.2.drawn := by
  -- no frame is compared with the one before it
  simp only [thirdPass, secondPass, firstPass, shownAfter, applyPass_accepted]
  decide +kernel

/-- The third pass applies the first sequence again. -/
theorem wrapped_passes :
    passesOf wrappedHistory = [firstPass.2, secondPass.2, thirdPass.2] := by
  have started : AtSequence 0 startedAccent := ⟨⟨false, rfl⟩, rfl, rfl, rfl, rfl, rfl⟩
  obtain ⟨hfirst, hrenderer, at1⟩ := showing_step started
  rw [show nextSequence 0 = 1 from rfl, ← firstPass] at hfirst hrenderer at1
  obtain ⟨hsecond, hrenderer', at2⟩ := showing_step (at1 shown_again.1.1)
  rw [hrenderer, show nextSequence 1 = 2 from rfl, ← secondPass] at hsecond hrenderer' at2
  rw [← after_append] at hrenderer' at2
  have last := retrigger_rounds (at2 shown_again.2.1.1) (2 ^ 64 - 3) (by decide)
  obtain ⟨hthird, -⟩ := showing_step last
  have idle : ∀ move ∈ (List.replicate (2 ^ 64 - 3) retrigger).flatten, move.works = false := by
    intro move mem
    obtain ⟨round, hround, mem⟩ := List.mem_flatten.mp mem
    exact retrigger_idle move (List.eq_of_mem_replicate hround ▸ mem)
  have unworked := renderer_unworked idle (after step startedAccent (showing ++ showing))
  have wraps : nextSequence (2 + (2 ^ 64 - 3)) = 1 := by decide
  rw [unworked.1, hrenderer', wraps, ← thirdPass] at hthird
  rw [wrappedHistory, wrappedRun, passes_append, passes_append, passes_append, hfirst, hsecond,
    unworked.2, hthird]
  rfl

/-- **A repeated sequence** is shown twice: after 2^64 − 1 triggers the counter of a binding comes
back to the sequence of the first. -/
theorem wrapped_transient_shown_twice :
    ∃ start ∈ startsOf wrappedHistory, ¬ ShownOnce start (passesOf wrappedHistory) := by
  obtain ⟨start, hstart, hfirst⟩ := firstShown_created
  refine ⟨start, ?_, fun once => ?_⟩
  · rw [wrappedHistory, wrappedRun, List.append_assoc, history, trace_append, List.map_append,
      startsOf, List.flatMap_append]
    exact List.mem_append_left _ hstart
  · rw [wrapped_passes] at once
    have shown := shown_again
    rw [← hfirst] at shown
    exact once.over shown.1.2 shown.2.1.2 shown.2.2

/-! ### Expiry -/

/-- Two delays below a duration are below twice its bound. -/
theorem lt_of_ages {originUs firstUs nowUs durationUs boundUs : ℕ} (horigin : originUs ≤ firstUs)
    (hyoung : firstUs - originUs < durationUs) (hlater : firstUs ≤ nowUs)
    (hunexpired : nowUs - firstUs < durationUs) (bounded : durationUs ≤ boundUs) :
    nowUs < originUs + 2 * boundUs := by
  omega

/-- **Transients expire.** In every run in which no binding is triggered 2^64 times, a pass draws an
occurrence less than its duration, of at most five seconds, after the first pass that applied it,
which came less than the duration after the trigger; so it is drawn less than ten seconds after its
trigger. -/
theorem transients_expire (registrations : List Registration) (r : RendererController)
    (sink : SinkAnswers) (moves : List (Move T)) :
    let events := history (started T registrations r sink) moves
    FewTriggers events →
    ∀ start ∈ startsOf events, ∀ pass ∈ passesOf events, occurrence start ∈ pass.drawn →
      (∃ before first after, passesOf events = before ++ first :: after ∧
        first.applies (occurrence start) ∧ (∀ p ∈ before, ¬ p.applies (occurrence start)) ∧
        start.originUs ≤ first.nowUs ∧
        first.nowUs - start.originUs < start.effect.durationUs ∧
        first.nowUs ≤ pass.nowUs ∧ pass.nowUs - first.nowUs < start.effect.durationUs) ∧
      start.effect.durationUs ≤ kMaxTransientDurationUs ∧
      pass.nowUs < start.originUs + 2 * kMaxTransientDurationUs := by
  intro events few start hstart pass hpass drew
  have witnessed := witnessed_after registrations r sink moves few
  rcases (witnessed.progress start hstart).shownOnce with
    none | ⟨startedUs, epoch, interval, after, hsplit, showing, none⟩
  · exact absurd drew (none pass hpass)
  · obtain ⟨before, first, later, rfl, rfl, begins, continues, -⟩ := showing
    obtain ⟨command, happlied, hlists⟩ := begins.applied
    have bounded : start.effect.durationUs ≤ kMaxTransientDurationUs :=
      (command.transients.valid start hlists).2.2.2
    change pass ∈ passesOf events at hpass
    change passesOf events = _ at hsplit
    -- the pass draws the occurrence, so it is in the interval after the first application
    have goes : Continues start first.nowUs epoch pass := by
      rw [hsplit] at hpass
      rcases List.mem_append.mp hpass with hpass | hpass
      · rcases List.mem_append.mp hpass with hpass | hpass
        · exact absurd drew (begins.fresh pass hpass).2
        · exact continues pass hpass
      · exact absurd drew (none pass hpass)
    have horigin := begins.origin
    have hyoung := begins.young
    have hlater := goes.later
    have hunexpired := goes.unexpired
    refine ⟨⟨before, first, later ++ after, ?_, ⟨command, epoch, happlied, start, hlists, rfl⟩,
      fun p hp => (begins.fresh p hp).1, horigin, hyoung, hlater, hunexpired⟩, bounded, ?_⟩
    · rw [hsplit, List.append_assoc, List.cons_append]
    · exact lt_of_ages horigin hyoung hlater hunexpired bounded

/-- The tick draws the occurrence six seconds after its trigger: the duration runs from the
application. -/
theorem delayed_transient_outlasts :
    ∃ start ∈ startsOf delayedHistory, ∃ pass ∈ passesOf delayedHistory,
      occurrence start ∈ pass.drawn ∧
        start.originUs + kMaxTransientDurationUs ≤ pass.nowUs := by
  obtain ⟨start, hstart, pass, hpass, drew, horigin, hnow⟩ := drawn_delayed
  refine ⟨start, hstart, pass, hpass, drew, ?_⟩
  rw [horigin, hnow]
  decide

theorem transients_expire_delayed :
    ∃ start ∈ startsOf delayedHistory, ∃ pass ∈ passesOf delayedHistory,
      occurrence start ∈ pass.drawn ∧
        pass.nowUs < start.originUs + 2 * kMaxTransientDurationUs := by
  obtain ⟨start, hstart, pass, hpass, drew, -⟩ := drawn_delayed
  exact ⟨start, hstart, pass, hpass, drew, (transients_expire [accent]
    { pixelCount := kMaxLedCount } (fun _ => true) delayedRun few_delayed start hstart pass hpass
    drew).2.2⟩

end Runs

end AccessoryController.LocalArgbActions
