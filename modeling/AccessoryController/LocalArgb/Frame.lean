import Mathlib.Data.List.Nodup
import AccessoryController.VehicleCore.Contracts

/-!
# Frames, zones and commands

The values that cross the lighting sink: pixel frames, zones with their fill levels, effect
priorities, one-shot transients and the command that carries them. The bounded lists of the
source are structures that keep their bound, so that a full list cannot be overrun and a start
with an invalid identity cannot be listed.

## Main definitions

* `PixelFrame`, `kBlackFrame`: the frame buffer of the longest strip
* `LedZone`, `FillFraction`: a run of pixels and an exact fill level
* `LightingFills`, `LightingTransientStarts`: the bounded lists of a command
* `LightingCommand`: what a publisher hands to the renderer
-/

namespace AccessoryController.LocalArgb

open VehicleCore

structure Rgb where
  red : UInt8 := 0
  green : UInt8 := 0
  blue : UInt8 := 0
  deriving DecidableEq, Repr

def kBlack : Rgb := {}

/-- The pixels of the frame buffer. -/
def kMaxLedCount : ℕ := 300

/-- The active length until one is configured. -/
def kDefaultLedCount : ℕ := 100

abbrev PixelFrame := Vector Rgb kMaxLedCount

def kBlackFrame : PixelFrame := Vector.replicate kMaxLedCount kBlack

/-- Writes one pixel. -/
def PixelFrame.put (frame : PixelFrame) (index : ℕ) (color : Rgb) : PixelFrame :=
  frame.setIfInBounds index color

inductive FillDirection
  | startToEnd | endToStart | centerOut
  | unknown (beyond : Fin 253)
  deriving DecidableEq, Repr

/-- A contiguous run of pixels and the direction in which a partial fill grows. -/
structure LedZone where
  start : ℕ := 0
  length : ℕ := 0
  direction : FillDirection := .startToEnd
  deriving DecidableEq, Repr

/-- A fill level between zero and one as an exact ratio. -/
structure FillFraction where
  numerator : ℕ
  denominator : ℕ
  positive : 0 < denominator
  bounded : numerator ≤ denominator

namespace FillFraction

def empty : FillFraction := ⟨0, 1, by decide, by decide⟩

def full : FillFraction := ⟨1, 1, by decide, by decide⟩

/-- Clamps to full; a zero denominator is empty. -/
def of (numerator denominator : ℕ) : FillFraction :=
  if h : denominator = 0 then empty
  else ⟨min numerator denominator, denominator, Nat.pos_of_ne_zero h, Nat.min_le_right _ _⟩

/-- Equality of the represented values. -/
def same (left right : FillFraction) : Prop :=
  left.numerator * right.denominator = right.numerator * left.denominator

instance (left right : FillFraction) : Decidable (left.same right) :=
  inferInstanceAs (Decidable (_ = _))

end FillFraction

/-- Resolves effects that overlap: the effect of higher rank owns the pixels. -/
structure EffectPriority where
  rank : ℕ := 100
  deriving DecidableEq, Repr

structure EffectPriorities where
  leftTurn : EffectPriority := {}
  rightTurn : EffectPriority := {}
  brake : EffectPriority := {}

/-- One level-driven fill. -/
structure LightingFill where
  zone : LedZone := {}
  level : FillFraction := .empty
  color : Rgb := {}
  priority : EffectPriority := {}

/-- The capacity of a list of fills. -/
def kMaxFills : ℕ := 8

theorem no_fills_bounded : ([] : List LightingFill).length ≤ kMaxFills := Nat.zero_le _

/-- A bounded list of fills, in drawing order. -/
structure LightingFills where
  fills : List LightingFill := []
  bounded : fills.length ≤ kMaxFills := by first | exact no_fills_bounded | decide

/-- Appends a fill; a full list is left as it is. -/
def LightingFills.add (list : LightingFills) (fill : LightingFill) : LightingFills × Bool :=
  if h : list.fills.length = kMaxFills then (list, false)
  else
    (⟨list.fills ++ [fill], by
      have := list.bounded
      rw [List.length_append, List.length_singleton]
      omega⟩, true)

/-- A renderer-local slot identity; zero is unset. -/
structure TransientId where
  value : ℕ := 0
  deriving DecidableEq, Repr

/-- The slots of transient effects. -/
def kMaxTransients : ℕ := 8

def TransientId.valid (id : TransientId) : Prop := 0 < id.value ∧ id.value ≤ kMaxTransients

instance (id : TransientId) : Decidable id.valid := inferInstanceAs (Decidable (_ ∧ _))

/-- One-shot effects last at most five seconds. -/
def kMaxTransientDurationUs : ℕ := 5000000

/-- A solid zone with a duration. -/
structure LightingTransient where
  zone : LedZone := {}
  color : Rgb := {}
  priority : EffectPriority := {}
  durationUs : ℕ := 0
  deriving DecidableEq, Repr

/-- A trigger of a transient; a changed sequence starts it again. -/
structure LightingTransientStart where
  id : TransientId := {}
  epoch : ℕ := 0
  sequence : ℕ := 0
  effect : LightingTransient := {}
  originUs : MonotonicTimestamp := 0
  deriving DecidableEq, Repr

/-- A start that a list accepts, apart from its room and its identities. -/
def LightingTransientStart.valid (start : LightingTransientStart) : Prop :=
  start.id.valid ∧ start.sequence ≠ 0 ∧ 0 < start.effect.durationUs ∧
    start.effect.durationUs ≤ kMaxTransientDurationUs

instance (start : LightingTransientStart) : Decidable start.valid :=
  inferInstanceAs (Decidable (_ ∧ _))

theorem no_starts_valid : ∀ start ∈ ([] : List LightingTransientStart), start.valid :=
  fun _ listed => absurd listed List.not_mem_nil

theorem no_starts_distinct :
    (([] : List LightingTransientStart).map fun start => start.id.value).Nodup := List.nodup_nil

theorem no_starts_bounded : ([] : List LightingTransientStart).length ≤ kMaxTransients :=
  Nat.zero_le _

/-- A bounded list of valid starts with distinct identities. -/
structure LightingTransientStarts where
  starts : List LightingTransientStart := []
  valid : ∀ start ∈ starts, start.valid := by first | exact no_starts_valid | simp
  distinct : (starts.map fun start => start.id.value).Nodup := by
    first | exact no_starts_distinct | simp
  bounded : starts.length ≤ kMaxTransients := by first | exact no_starts_bounded | decide

/-- Appends a start; an invalid one, a full list and a listed identity change nothing. -/
def LightingTransientStarts.add (list : LightingTransientStarts)
    (start : LightingTransientStart) : LightingTransientStarts × Bool :=
  if h : start.valid ∧ list.starts.length ≠ kMaxTransients ∧
      start.id.value ∉ list.starts.map fun existing => existing.id.value then
    ({ starts := list.starts ++ [start]
       valid := by
        intro s hs
        rcases List.mem_append.mp hs with hs | hs
        · exact list.valid s hs
        · rw [List.mem_singleton.mp hs]
          exact h.1
       distinct := by
        rw [List.map_append, List.map_singleton, List.nodup_append]
        refine ⟨list.distinct, List.nodup_singleton _, fun a ha b hb => ?_⟩
        rintro rfl
        exact h.2.2 (List.mem_singleton.mp hb ▸ ha)
       bounded := by
        have := list.bounded
        have := h.2.1
        rw [List.length_append, List.length_singleton]
        omega }, true)
  else (list, false)

/-- What a publisher hands to the renderer. -/
structure LightingCommand where
  color : Rgb := {}
  leftTurn : Bool := false
  rightTurn : Bool := false
  brake : Bool := false
  validUntilUs : MonotonicTimestamp := 0
  actionable : Bool := false
  fills : LightingFills := {}
  priorities : EffectPriorities := {}
  transients : LightingTransientStarts := {}

end AccessoryController.LocalArgb
