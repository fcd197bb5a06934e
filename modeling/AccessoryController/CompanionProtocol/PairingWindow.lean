import AccessoryController.CompanionProtocol.LinkSecurity

/-!
# The pairing window

A debounced user key press opens a window in which the controller accepts a new pairing. A guard
keeps the bond store behind the window: it sits in a hook slot that the host stack owns and may
overwrite.

## Main definitions

* `PairingWindow`: the window, open for one period after a press
* `UserKeyDebouncer.sample`: periodic samples turned into presses
* `HookGuard.ensure`: the installation of a guard in a slot

## Main results

* `HookGuard.forwards_ensure`: a guard never comes to forward to itself
* `HookGuard.slot_ensure`: afterwards the slot holds the guard or nothing
-/

namespace AccessoryController.CompanionProtocol

/-! ### The window -/

/-- How long a press opens the window. -/
def kPairingWindowPeriod : PairingClock := 120000

/-- Whether this boot can store bonds. -/
inductive BondStorage
  | unavailable | available
  deriving DecidableEq, Repr

structure PairingWindow where
  storage : BondStorage
  closesAt : Option PairingClock := none
  deriving DecidableEq, Repr

namespace PairingWindow

/-- A press opens the window, or restarts the period of an open one. -/
def «open» (w : PairingWindow) (now : PairingClock) : PairingWindow × Bool :=
  if w.storage ≠ .available then (w, false)
  else ({ w with closesAt := some (now + kPairingWindowPeriod) }, true)

def close (w : PairingWindow) : PairingWindow := { w with closesAt := none }

def isOpen (w : PairingWindow) (now : PairingClock) : Bool :=
  w.closesAt.any fun closesAt => decide (now < closesAt)

theorem isOpen_iff {w : PairingWindow} {now : PairingClock} :
    w.isOpen now = true ↔ ∃ closesAt, w.closesAt = some closesAt ∧ now < closesAt := by
  unfold isOpen
  rw [Option.any_eq_true_iff_get]
  constructor
  · rintro ⟨some, before⟩
    exact ⟨_, (Option.some_get some).symm, of_decide_eq_true before⟩
  · rintro ⟨closesAt, hcloses, before⟩
    exact ⟨by rw [hcloses]; rfl, by simpa [hcloses] using before⟩

end PairingWindow

/-! ### The user key -/

inductive UserKeyLevel
  | released | pressed
  deriving DecidableEq, Repr

/-- The equal samples in a row that make a change of the level stable. -/
def kUserKeyDebounceSamples : ℕ := 3

/-- The key starts as pressed, so that a key held since boot never counts. -/
structure UserKeyDebouncer where
  stable : UserKeyLevel := .pressed
  changedSamples : ℕ := 0
  deriving DecidableEq, Repr

/-- One sample; the answer tells a debounced press. -/
def UserKeyDebouncer.sample (d : UserKeyDebouncer) (level : UserKeyLevel) :
    UserKeyDebouncer × Bool :=
  if level = d.stable then ({ d with changedSamples := 0 }, false)
  else if d.changedSamples + 1 < kUserKeyDebounceSamples then
    ({ d with changedSamples := d.changedSamples + 1 }, false)
  else (⟨level, 0⟩, level == .pressed)

/-! ### The guard -/

inductive HookState
  | alreadyInstalled | installed | missing
  deriving DecidableEq, Repr

/-- A guard function, and the host's function that it forwards to. -/
structure HookGuard (Hook : Type) where
  guard : Hook
  original : Option Hook := none
  deriving DecidableEq, Repr

namespace HookGuard

variable {Hook : Type} [DecidableEq Hook]

/-- Installs the guard in a slot, and notes what was in there. An empty slot stays empty. -/
def ensure (g : HookGuard Hook) (slot : Option Hook) :
    HookGuard Hook × Option Hook × HookState :=
  if slot = some g.guard then
    (g, slot, if g.original.isSome then .alreadyInstalled else .missing)
  else
    match slot with
    | none => (g, none, .missing)
    | some hook => ({ g with original := some hook }, some g.guard, .installed)

/-- **A guard** never comes to forward to itself. -/
theorem forwards_ensure {g : HookGuard Hook} (forwards : g.original ≠ some g.guard)
    (slot : Option Hook) :
    (g.ensure slot).1.guard = g.guard ∧ (g.ensure slot).1.original ≠ some g.guard := by
  unfold ensure
  split
  · exact ⟨rfl, forwards⟩
  · rename_i other
    cases slot with
    | none => exact ⟨rfl, forwards⟩
    | some hook => exact ⟨rfl, other⟩

/-- Afterwards the slot holds the guard or nothing. -/
theorem slot_ensure (g : HookGuard Hook) (slot : Option Hook) :
    (g.ensure slot).2.1 = some g.guard ∨ (g.ensure slot).2.1 = none := by
  unfold ensure
  split
  · rename_i guarded
    exact Or.inl guarded
  · cases slot with
    | none => exact Or.inr rfl
    | some hook => exact Or.inl rfl

end HookGuard

end AccessoryController.CompanionProtocol
