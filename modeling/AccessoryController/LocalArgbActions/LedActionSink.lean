import AccessoryController.LocalArgbActions.Bindings

/-!
# The LED action sink

The adapter executes the engine's commands: it records the level of every binding of the action,
starts the transients that a trigger addresses, and publishes the whole state as one lighting
command. A rejected publication retires every start.

## Main definitions

* `Table.hold`: the update of every binding of one action
* `EffectBindings.lit`, `FillBindings.lit`, `TransientBindings.latest`: what the tables show
* `fillLevel`: the exact fraction of a fill for an engine level
* `heldCommand`: the lighting command of the tables
* `LedActionSink.record`, `LedActionSink.settle`: an execution up to its publication, and after it

## Main results

* `TransientBindings.mem_latest`: the starts of a snapshot are those of retained bindings
-/

namespace AccessoryController.LocalArgbActions

open ActionEngine (ActionCommand ActionCommandKind ActionId)
open LocalArgb
open VehicleCore (MonotonicTimestamp maxTimestamp)

namespace Table

variable {Binding : Type} {capacity : ℕ}

/-- Updates the bindings of an action, and tells whether there are any. -/
def hold (table : Table Binding capacity) (action : Binding → ActionId) (addressed : ActionId)
    (held : Binding → Binding) : Table Binding capacity × Bool :=
  (⟨table.bindings.map fun binding =>
      if action binding = addressed then held binding else binding, by
    rw [List.length_map]
    exact table.bounded⟩,
    table.bindings.any fun binding => action binding == addressed)

theorem hold_bindings (table : Table Binding capacity) (action : Binding → ActionId)
    (addressed : ActionId) (held : Binding → Binding) :
    (table.hold action addressed held).1.bindings = table.bindings.map fun binding =>
      if action binding = addressed then held binding else binding := rfl

/-- Without a binding of the action nothing changes. -/
theorem hold_unbound {table : Table Binding capacity} {action : Binding → ActionId}
    {addressed : ActionId} {held : Binding → Binding}
    (unbound : (table.hold action addressed held).2 = false) :
    (table.hold action addressed held).1 = table := by
  have others : ∀ binding ∈ table.bindings, action binding ≠ addressed := by
    intro binding hmem heq
    have bound := List.any_eq_false.mp unbound binding hmem
    exact bound (beq_iff_eq.mpr heq)
  have same : (table.hold action addressed held).1.bindings = table.bindings := by
    rw [hold_bindings]
    refine (List.map_congr_left fun binding hmem => ?_).trans (List.map_id _)
    exact if_neg (others binding hmem)
  cases table
  simp only [hold] at same ⊢
  congr

end Table

/-! ### Lit regions -/

/-- Which effects are lit. -/
structure LedEffects where
  leftTurn : Bool := false
  rightTurn : Bool := false
  brake : Bool := false
  deriving DecidableEq, Repr

def LedEffects.any (effects : LedEffects) : Bool :=
  effects.leftTurn || effects.rightTurn || effects.brake

namespace EffectBindings

def hold (table : EffectBindings) (action : ActionId) (active : Bool) : EffectBindings × Bool :=
  Table.hold table EffectBinding.action action fun binding => { binding with active }

/-- Some active binding lights the effect. -/
def lights (table : EffectBindings) (effect : LedEffect) : Bool :=
  table.bindings.any fun binding => binding.active && binding.effect == effect

def lit (table : EffectBindings) : LedEffects :=
  ⟨table.lights .leftTurn, table.lights .rightTurn, table.lights .brake⟩

/-- The highest priority among the active bindings of an effect, or the default one. -/
def highestActive (table : EffectBindings) (effect : LedEffect) : EffectPriority :=
  (table.bindings.foldl (fun (highest : Option EffectPriority) binding =>
    if !binding.active || binding.effect != effect then highest
    else
      match highest with
      | none => some binding.priority
      | some priority =>
        if priority.rank < binding.priority.rank then some binding.priority
        else highest) none).getD {}

def priorities (table : EffectBindings) : EffectPriorities :=
  ⟨table.highestActive .leftTurn, table.highestActive .rightTurn, table.highestActive .brake⟩

end EffectBindings

/-! ### Fills -/

/-- The resolution of a fractional level. -/
def kLevelSteps : ℕ := 2 ^ 16

/-- The nearest integer to a number that is not negative, the larger one if there are two. -/
def lround (x : Binary32) : ℕ := (x.magnitude + 2 ^ 148) / 2 ^ 149

/-- An engine level as a fill fraction. The scaling by a power of two is exact. -/
def fillLevel (level : Binary32) : FillFraction :=
  if ¬ Binary32.lt ⟨0⟩ level then .empty
  else if Binary32.le ⟨0x3F800000⟩ level then .full
  else .of (lround (level.mul ⟨0x47800000⟩)) kLevelSteps

namespace FillBindings

def hold (table : FillBindings) (action : ActionId) (level : FillFraction) :
    FillBindings × Bool :=
  Table.hold table FillBinding.action action fun binding => { binding with level }

/-- The fills that are not empty, in binding order. -/
def lit (table : FillBindings) : LightingFills :=
  table.bindings.foldl (fun (fills : LightingFills) binding =>
    if binding.level.same .empty then fills
    else (fills.add
      ⟨binding.effect.zone, binding.level, binding.effect.color, binding.effect.priority⟩).1) {}

end FillBindings

/-! ### Transients -/

/-- The sequence after a trigger: it is 64 bits wide, and never zero. -/
def nextSequence (sequence : ℕ) : ℕ :=
  let next := (sequence + 1) % 2 ^ 64
  if next = 0 then next + 1 else next

theorem nextSequence_eq {sequence : ℕ} (room : sequence + 1 < 2 ^ 64) :
    nextSequence sequence = sequence + 1 := by
  unfold nextSequence
  rw [Nat.mod_eq_of_lt room]
  exact if_neg (Nat.succ_ne_zero sequence)

/-- The binding after a trigger. -/
def TransientBinding.triggered (binding : TransientBinding) (originUs : MonotonicTimestamp)
    (epoch : ℕ) : TransientBinding :=
  { binding with
    sequence := nextSequence binding.sequence
    originUs
    epoch
    retained := true }

/-- The latest start of the binding at an index. -/
def TransientBinding.start (binding : TransientBinding) (index : ℕ) : LightingTransientStart where
  id := ⟨index + 1⟩
  epoch := binding.epoch
  sequence := binding.sequence
  effect := binding.effect
  originUs := binding.originUs

namespace TransientBindings

def trigger (table : TransientBindings) (action : ActionId) (originUs : MonotonicTimestamp)
    (epoch : ℕ) : TransientBindings × Bool :=
  Table.hold table TransientBinding.action action (·.triggered originUs epoch)

/-- The retained starts of the current epoch. -/
def latest (table : TransientBindings) (epoch : ℕ) : LightingTransientStarts :=
  table.bindings.zipIdx.foldl (fun (starts : LightingTransientStarts) entry =>
    if entry.1.retained ∧ entry.1.epoch = epoch then (starts.add (entry.1.start entry.2)).1
    else starts) {}

def discardStarts (table : TransientBindings) : TransientBindings :=
  ⟨table.bindings.map fun binding => { binding with retained := false }, by
    rw [List.length_map]
    exact table.bounded⟩

end TransientBindings

/-! ### The adapter -/

/-- Held levels have no deadline. -/
def kHeldUntilUs : MonotonicTimestamp := maxTimestamp

/-- The state of the tables as a lighting command. -/
def heldCommand (bindings : EffectBindings) (fillBindings : FillBindings)
    (transients : TransientBindings) (epoch : ℕ) : LightingCommand :=
  let effects := bindings.lit
  let fills := fillBindings.lit
  let starts := transients.latest epoch
  let actionable := effects.any || !fills.fills.isEmpty || !starts.starts.isEmpty
  { priorities := bindings.priorities
    leftTurn := effects.leftTurn
    rightTurn := effects.rightTurn
    brake := effects.brake
    fills
    transients := starts
    actionable
    validUntilUs := if actionable then kHeldUntilUs else 0 }

/-- The level of on/off effects. -/
def onOffLevel : ActionCommandKind → Option Bool
  | .activate => some true
  | .deactivate => some false
  | .trigger | .setLevel => none

/-- The level of fills. -/
def commandedLevel (command : ActionCommand) : Option FillFraction :=
  match command.kind with
  | .activate => some .full
  | .deactivate => some .empty
  | .setLevel => some (fillLevel command.level)
  | .trigger => none

namespace LedActionSink

/-- An execution up to its publication: the tables with the command recorded, and the lighting
command to publish if anything is bound to the action. -/
def record (leds : LedActionSink) (command : ActionCommand) (nowUs : MonotonicTimestamp)
    (epoch : ℕ) : LedActionSink × Option LightingCommand :=
  let effects := match onOffLevel command.kind with
    | some active => EffectBindings.hold leds.effects command.action active
    | none => (leds.effects, false)
  let fills := match commandedLevel command with
    | some level => FillBindings.hold leds.fills command.action level
    | none => (leds.fills, false)
  let transients :=
    if command.kind = .trigger then TransientBindings.trigger leds.transients command.action nowUs
      epoch
    else (leds.transients, false)
  (⟨effects.1, fills.1, transients.1⟩,
    if effects.2 || fills.2 || transients.2 then
      some (heldCommand effects.1 fills.1 transients.1 epoch)
    else none)

/-- The end of an execution: a rejected publication retires the starts. -/
def settle (leds : LedActionSink) (accepted : Bool) : LedActionSink :=
  if accepted then leds
  else { leds with transients := TransientBindings.discardStarts leds.transients }

end LedActionSink

/-! ### The starts of a snapshot -/

/-- A start of a list that another one was appended to. -/
theorem mem_add {list : LightingTransientStarts} {start other : LightingTransientStart}
    (h : start ∈ (list.add other).1.starts) : start ∈ list.starts ∨ start = other := by
  unfold LightingTransientStarts.add at h
  split at h
  · rcases List.mem_append.mp h with h | h
    · exact Or.inl h
    · exact Or.inr (List.mem_singleton.mp h)
  · exact Or.inl h

/-- **A snapshot** lists only the starts of retained bindings of its epoch. -/
theorem TransientBindings.mem_latest {table : TransientBindings} {epoch : ℕ}
    {start : LightingTransientStart} (h : start ∈ (table.latest epoch).starts) :
    ∃ index, ∃ binding : TransientBinding, table.bindings[index]? = some binding ∧
      binding.retained = true ∧ binding.epoch = epoch ∧ start = binding.start index := by
  have all : ∀ (entries : List (TransientBinding × ℕ)) (starts : LightingTransientStarts),
      start ∈ (entries.foldl (fun (starts : LightingTransientStarts) entry =>
        if entry.1.retained ∧ entry.1.epoch = epoch then (starts.add (entry.1.start entry.2)).1
        else starts) starts).starts →
      start ∈ starts.starts ∨ ∃ entry ∈ entries, entry.1.retained = true ∧
        entry.1.epoch = epoch ∧ start = entry.1.start entry.2 := by
    intro entries
    induction entries with
    | nil => exact fun starts h => Or.inl h
    | cons entry entries ih =>
      intro starts h
      rw [List.foldl_cons] at h
      rcases ih _ h with h | ⟨found, hfound, facts⟩
      · split at h
        · rename_i current
          rcases mem_add h with h | rfl
          · exact Or.inl h
          · exact Or.inr ⟨entry, List.mem_cons_self, current.1, current.2, rfl⟩
        · exact Or.inl h
      · exact Or.inr ⟨found, List.mem_cons_of_mem _ hfound, facts⟩
  rcases all _ _ h with h | ⟨⟨binding, index⟩, hentry, retained, current, rfl⟩
  · cases h
  · exact ⟨index, binding, by simpa using List.mem_zipIdx_iff_getElem?.mp hentry, retained,
      current, rfl⟩

end AccessoryController.LocalArgbActions
