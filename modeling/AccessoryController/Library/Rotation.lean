import Mathlib.Data.List.Nodup
import Mathlib.Data.List.Perm.Subperm

/-!
# Rotation by keys

Clients with numeric keys are served one at a time. A service goes to the due client of least key
above a cursor, or to the one of least key where none is above it, and leaves the cursor at the key
that it served. Seen from the cursor the keys stand in a circle, so no client is served twice while
another one with a key of its own waits.

## Main definitions

* `Rotation.Pick key due cursor x`: the service at the cursor goes to `x`
* `Rotation.Between α cursor β`: on the way around the circle from `α` the cursor is before `β`
* `Rotation.Waiting key b seen cursor`: the clients served while `b` has been waiting

## Main results

* `Rotation.Waiting.pick`: a service of another client keeps `b` waiting
* `Rotation.Waiting.length_lt`: fewer clients are served than there are
-/

namespace Rotation

variable {C : Type*} {key : C → ℕ}

/-- On the way around the circle from `α`, the cursor has not come to `β`. -/
def Between (α cursor β : ℕ) : Prop :=
  if α < β then α ≤ cursor ∧ cursor < β else α ≤ cursor ∨ cursor < β

/-- The service at a cursor: the least due key above it, or the least one where none is above. -/
structure Pick (key : C → ℕ) (due : C → Prop) (cursor : ℕ) (x : C) : Prop where
  isDue : due x
  first : (cursor < key x ∧ ∀ y, due y → cursor < key y → key x ≤ key y) ∨
    (∀ y, due y → key y ≤ cursor) ∧ ∀ y, due y → key x ≤ key y

theorem between_self {α β : ℕ} : Between α α β := by
  unfold Between
  split_ifs with h
  · exact ⟨Nat.le_refl α, h⟩
  · exact Or.inl (Nat.le_refl α)

/-- A service of a client other than `b` is not of a client that stands before the cursor. -/
theorem Pick.passes {due : C → Prop} {cursor : ℕ} {x a b : C} (pick : Pick key due cursor x)
    (waits : due b) (other : key x ≠ key b) (apart : key a ≠ key b)
    (between : Between (key a) cursor (key b)) :
    key x ≠ key a ∧ Between (key a) (key x) (key b) := by
  unfold Between at between ⊢
  rcases pick.first with ⟨above, least⟩ | ⟨below, least⟩
  · -- the keys above the cursor rise up to that of `b`, if it is one of them
    have reach : cursor < key b → key x ≤ key b := least b waits
    split_ifs at between ⊢ <;> omega
  · -- past the last key the service starts over below that of `b`
    have start := least b waits
    have passed := below b waits
    split_ifs at between ⊢ <;> omega

/-- The clients served while `b` has been waiting: each once, and all before the cursor. -/
structure Waiting (key : C → ℕ) (b : C) (seen : List C) (cursor : ℕ) : Prop where
  once : seen.Nodup
  before : ∀ x ∈ seen, key x ≠ key b ∧ Between (key x) cursor (key b)

theorem waiting_nil (b : C) (cursor : ℕ) : Waiting key b [] cursor :=
  ⟨List.nodup_nil, fun _ hx => absurd hx List.not_mem_nil⟩

theorem waiting_singleton {a b : C} (apart : key a ≠ key b) : Waiting key b [a] (key a) := by
  refine ⟨List.nodup_singleton a, fun x hx => ?_⟩
  rw [List.mem_singleton.mp hx]
  exact ⟨apart, between_self⟩

/-- **A service** of another client is of one that has not been served while `b` waits. -/
theorem Waiting.pick {due : C → Prop} {cursor : ℕ} {x b : C} {seen : List C}
    (waiting : Waiting key b seen cursor) (pick : Pick key due cursor x) (waits : due b)
    (other : key x ≠ key b) : Waiting key b (seen ++ [x]) (key x) := by
  constructor
  · refine List.nodup_append.mpr ⟨waiting.once, List.nodup_singleton x, ?_⟩
    rintro a ha y hy rfl
    rw [List.mem_singleton.mp hy] at ha
    obtain ⟨apart, between⟩ := waiting.before x ha
    exact (pick.passes waits other apart between).1 rfl
  · intro a ha
    rcases List.mem_append.mp ha with ha | ha
    · obtain ⟨apart, between⟩ := waiting.before a ha
      exact ⟨apart, (pick.passes waits other apart between).2⟩
    · rw [List.mem_singleton.mp ha]
      exact ⟨other, between_self⟩

/-- **While `b` waits**, fewer clients are served than there are. -/
theorem Waiting.length_lt {cursor : ℕ} {b : C} {seen clients : List C}
    (waiting : Waiting key b seen cursor) (known : ∀ x ∈ seen, x ∈ clients) (hb : b ∈ clients) :
    seen.length < clients.length := by
  have fresh : b ∉ seen := fun h => (waiting.before b h).1 rfl
  have nodup : (b :: seen).Nodup := List.nodup_cons.mpr ⟨fresh, waiting.once⟩
  have subset : b :: seen ⊆ clients := by
    intro x hx
    rcases List.mem_cons.mp hx with rfl | hx
    · exact hb
    · exact known x hx
  exact (nodup.subperm subset).length_le

end Rotation
