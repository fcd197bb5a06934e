import AccessoryController.ActionEngine.Config
import AccessoryController.LocalArgb.Frame

/-!
# Output bindings of the LED adapter

The adapter binds engine actions to lit regions, to level-driven fills and to one-shot transients.
Each kind has a table of fixed capacity, kept as a structure that cannot overrun its capacity.
The three `bind` functions refuse in one order: the action, the effect, a duplicate, the room.

## Main definitions

* `Table`, `Table.bind`: a bounded table and the registration of an entry
* `EffectBindings`, `FillBindings`, `TransientBindings`: the tables of the three kinds
* `LedActionSink`: the adapter's tables

## Main results

* `Table.bind_cases`: what a registration may answer and leave behind
-/

namespace AccessoryController.LocalArgbActions

open ActionEngine (ActionId)
open LocalArgb (EffectPriority FillFraction LedZone LightingTransient)
open VehicleCore (MonotonicTimestamp)

/-- The strip regions that the renderer can light. -/
inductive LedEffect
  | leftTurn | rightTurn | brake
  | unknown (beyond : Fin 253)
  deriving DecidableEq, Repr

inductive BindingStatus
  | ok | invalidAction | duplicateBinding | capacityExceeded | invalidEffect
  deriving DecidableEq, Repr

/-! ### Bounded tables -/

/-- The bindings of one kind, in the order of their registration. -/
structure Table (Binding : Type) (capacity : ℕ) where
  bindings : List Binding := []
  bounded : bindings.length ≤ capacity

namespace Table

variable {Binding : Type} {capacity : ℕ}

def clear (_ : Table Binding capacity) : Table Binding capacity := ⟨[], Nat.zero_le _⟩

instance : Inhabited (Table Binding capacity) := ⟨⟨[], Nat.zero_le _⟩⟩

/-- Appends `binding`; `same` tells the registered bindings that already drive its target. -/
def bind (table : Table Binding capacity) (action : ActionId) (invalid : Bool)
    (same : Binding → Bool) (binding : Binding) : Table Binding capacity × BindingStatus :=
  if ¬ action.valid then (table, .invalidAction)
  else if invalid then (table, .invalidEffect)
  else if table.bindings.any same then (table, .duplicateBinding)
  else if h : table.bindings.length = capacity then (table, .capacityExceeded)
  else
    (⟨table.bindings ++ [binding], by
      have := table.bounded
      rw [List.length_append, List.length_singleton]
      omega⟩, .ok)

/-- **A registration** of a valid, fresh binding is appended, or finds no room. -/
theorem bind_cases {table : Table Binding capacity} {action : ActionId} {invalid : Bool}
    {same : Binding → Bool} {binding : Binding} (hvalid : action.valid) (heffect : invalid = false)
    (hfresh : ∀ bound ∈ table.bindings, same bound = false) :
    ((table.bind action invalid same binding).2 = .ok ∧
      (table.bind action invalid same binding).1.bindings = table.bindings ++ [binding]) ∨
    (table.bind action invalid same binding).2 = .capacityExceeded := by
  have hany : table.bindings.any same = false := by
    rw [List.any_eq_false]
    intro bound hmem
    rw [hfresh bound hmem]
    exact Bool.false_ne_true
  unfold bind
  rw [if_neg (not_not_intro hvalid), heffect, hany]
  by_cases hroom : table.bindings.length = capacity
  · right
    simp [hroom]
  · left
    simp [hroom]

/-- A registration appends the binding or changes nothing. -/
theorem bindings_bind (table : Table Binding capacity) (action : ActionId) (invalid : Bool)
    (same : Binding → Bool) (binding : Binding) :
    (table.bind action invalid same binding).1.bindings = table.bindings ∨
      (table.bind action invalid same binding).1.bindings = table.bindings ++ [binding] := by
  unfold bind
  split
  · exact Or.inl rfl
  split
  · exact Or.inl rfl
  split
  · exact Or.inl rfl
  split
  · exact Or.inl rfl
  · exact Or.inr rfl

end Table

/-! ### Lit regions -/

structure EffectBinding where
  action : ActionId := {}
  effect : LedEffect := .leftTurn
  priority : EffectPriority := {}
  active : Bool := false
  deriving DecidableEq, Repr

def kEffectCapacity : ℕ := 8

abbrev EffectBindings := Table EffectBinding kEffectCapacity

/-- The binding already lights the effect for the action. -/
def EffectBinding.drives (binding : EffectBinding) (action : ActionId) (effect : LedEffect) :
    Bool :=
  binding.action == action && binding.effect == effect

def EffectBindings.bindEffect (table : EffectBindings) (action : ActionId) (effect : LedEffect)
    (priority : EffectPriority) : EffectBindings × BindingStatus :=
  table.bind action false (·.drives action effect) ⟨action, effect, priority, false⟩

/-! ### Fills -/

/-- A zone of the strip that is lit in proportion to a level. -/
structure FillEffect where
  zone : LedZone := {}
  color : LocalArgb.Rgb := {}
  priority : EffectPriority := {}
  deriving DecidableEq, Repr

structure FillBinding where
  action : ActionId := {}
  effect : FillEffect := {}
  level : FillFraction := .empty

abbrev FillBindings := Table FillBinding LocalArgb.kMaxFills

/-- The binding already fills the zone, its direction included, for the action. -/
def FillBinding.drives (binding : FillBinding) (action : ActionId) (zone : LedZone) : Bool :=
  binding.action == action && binding.effect.zone == zone

def FillBindings.bindFill (table : FillBindings) (action : ActionId) (effect : FillEffect) :
    FillBindings × BindingStatus :=
  table.bind action false (·.drives action effect.zone) ⟨action, effect, .empty⟩

/-! ### Transients -/

/-- A binding with its latest start; the start is `retained` until it is retired. -/
structure TransientBinding where
  action : ActionId := {}
  effect : LightingTransient := {}
  sequence : ℕ := 0
  originUs : MonotonicTimestamp := 0
  epoch : ℕ := 0
  retained : Bool := false
  deriving DecidableEq, Repr

abbrev TransientBindings := Table TransientBinding LocalArgb.kMaxTransients

/-- The binding already starts a transient on the pixels of the zone for the action. -/
def TransientBinding.drives (binding : TransientBinding) (action : ActionId) (zone : LedZone) :
    Bool :=
  binding.action == action && binding.effect.zone.start == zone.start &&
    binding.effect.zone.length == zone.length

/-- The transient does not fit the strip, or its duration or direction is not supported. -/
def invalidTransient (effect : LightingTransient) (pixelCount : ℕ) : Bool :=
  decide (effect.durationUs = 0 ∨ LocalArgb.kMaxTransientDurationUs < effect.durationUs ∨
    effect.zone.length = 0 ∨ pixelCount < LocalArgb.kDefaultLedCount ∨
    LocalArgb.kMaxLedCount < pixelCount ∨ pixelCount ≤ effect.zone.start ∨
    pixelCount - effect.zone.start < effect.zone.length ∨
    effect.zone.direction ≠ .startToEnd ∧ effect.zone.direction ≠ .endToStart ∧
      effect.zone.direction ≠ .centerOut)

def TransientBindings.bindTransient (table : TransientBindings) (action : ActionId)
    (effect : LightingTransient) (pixelCount : ℕ) : TransientBindings × BindingStatus :=
  table.bind action (invalidTransient effect pixelCount) (·.drives action effect.zone)
    { action, effect }

/-! ### The adapter -/

/-- The local LED output adapter. -/
structure LedActionSink where
  effects : EffectBindings := default
  fills : FillBindings := default
  transients : TransientBindings := default

namespace LedActionSink

def bindEffect (leds : LedActionSink) (action : ActionId) (effect : LedEffect)
    (priority : EffectPriority) : LedActionSink × BindingStatus :=
  ({ leds with effects := (leds.effects.bindEffect action effect priority).1 },
    (leds.effects.bindEffect action effect priority).2)

def bindFill (leds : LedActionSink) (action : ActionId) (effect : FillEffect) :
    LedActionSink × BindingStatus :=
  ({ leds with fills := (leds.fills.bindFill action effect).1 },
    (leds.fills.bindFill action effect).2)

def bindTransient (leds : LedActionSink) (action : ActionId) (effect : LightingTransient)
    (pixelCount : ℕ) : LedActionSink × BindingStatus :=
  ({ leds with transients := (leds.transients.bindTransient action effect pixelCount).1 },
    (leds.transients.bindTransient action effect pixelCount).2)

/-- Removes every binding. -/
def clear (leds : LedActionSink) : LedActionSink :=
  ⟨leds.effects.clear, leds.fills.clear, leds.transients.clear⟩

end LedActionSink

end AccessoryController.LocalArgbActions
