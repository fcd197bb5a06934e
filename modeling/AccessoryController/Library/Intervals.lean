import Mathlib.Data.Rat.Floor
import AccessoryController.Library.Grouping

/-!
# Intervals of integers

Inclusive intervals by their ends. The integers that an affine map with rational coefficients takes
into an interval are an interval again, whose ends are rounded inwards and change places under a
negative slope. A list of intervals is merged from the left: an interval that overlaps the last one
or touches it extends it. Merging keeps the integers and leaves a gap between any two intervals.

## Main definitions

* `Intervals.Covers intervals n`: an interval contains `n`
* `Intervals.merge`: the merged intervals of a list

## Main results

* `Intervals.mem_preimage`: the integers that an affine map takes into an interval
* `Intervals.covers_merge`: merging keeps the integers
* `Intervals.separated_merge`: merged intervals neither overlap nor touch
-/

namespace Intervals

open Grouping

/-! ### Affine maps -/

/-- **The preimage of an interval** under an affine map, between the rounded ends. -/
theorem mem_preimage {scale : ℚ} (nonzero : scale ≠ 0) (offset : ℚ) {low high : ℚ}
    (ordered : low ≤ high) (n : ℤ) :
    ⌈min ((low - offset) / scale) ((high - offset) / scale)⌉ ≤ n ∧
        n ≤ ⌊max ((low - offset) / scale) ((high - offset) / scale)⌋ ↔
      low ≤ n * scale + offset ∧ n * scale + offset ≤ high := by
  rw [Int.ceil_le, Int.le_floor]
  rcases lt_or_gt_of_ne nonzero with negative | positive
  · -- a negative slope exchanges the ends
    have exchanged : (high - offset) / scale ≤ (low - offset) / scale :=
      div_le_div_of_nonpos_of_le negative.le (by linarith)
    rw [min_eq_right exchanged, max_eq_left exchanged, div_le_iff_of_neg negative,
      le_div_iff_of_neg negative]
    constructor <;> rintro ⟨first, second⟩ <;> constructor <;> linarith
  · have kept : (low - offset) / scale ≤ (high - offset) / scale :=
      div_le_div_of_nonneg_right (by linarith) positive.le
    rw [min_eq_left kept, max_eq_right kept, div_le_iff₀ positive, le_div_iff₀ positive]
    constructor <;> rintro ⟨first, second⟩ <;> constructor <;> linarith

/-! ### Merging -/

/-- An interval of the list contains the integer. -/
def Covers (intervals : List (ℤ × ℤ)) (n : ℤ) : Prop := ∃ i ∈ intervals, i.1 ≤ n ∧ n ≤ i.2

variable {rest : List (ℤ × ℤ)} {last : ℤ × ℤ} {intervals : List (ℤ × ℤ)}

theorem covers_cons {i : ℤ × ℤ} {n : ℤ} :
    Covers (i :: rest) n ↔ (i.1 ≤ n ∧ n ≤ i.2) ∨ Covers rest n := by
  simp [Covers]

/-- The merged intervals from the last one on. -/
def mergeFrom (last : ℤ × ℤ) : List (ℤ × ℤ) → List (ℤ × ℤ)
  | [] => [last]
  | next :: rest =>
    if next.1 ≤ last.2 + 1 then mergeFrom (last.1, max last.2 next.2) rest
    else last :: mergeFrom next rest

/-- The merged intervals of a list that is sorted by its lower ends. -/
def merge : List (ℤ × ℤ) → List (ℤ × ℤ)
  | [] => []
  | first :: rest => mergeFrom first rest

/-- What all intervals of a list have, and an interval made of two that have it. -/
theorem forall_mergeFrom {P : ℤ × ℤ → Prop} (joined : ∀ a b, P a → P b → P (a.1, max a.2 b.2))
    (here : P last) (later : ∀ i ∈ rest, P i) : ∀ i ∈ mergeFrom last rest, P i := by
  induction rest generalizing last with
  | nil =>
    intro i mem
    rwa [List.mem_singleton.mp mem]
  | cons next rest ih =>
    obtain ⟨now, later⟩ := List.forall_mem_cons.mp later
    rw [mergeFrom]
    split_ifs
    · exact ih (joined last next here now) later
    · exact List.forall_mem_cons.mpr ⟨here, ih now later⟩

theorem covers_mergeFrom (sorted : (last :: rest).Pairwise fun a b => a.1 ≤ b.1) (n : ℤ) :
    Covers (mergeFrom last rest) n ↔ Covers (last :: rest) n := by
  induction rest generalizing last with
  | nil => exact Iff.rfl
  | cons next rest ih =>
    obtain ⟨least, later⟩ := List.pairwise_cons.mp sorted
    obtain ⟨here, least⟩ := List.forall_mem_cons.mp least
    rw [mergeFrom]
    split_ifs with touch
    · have extended : ((last.1, max last.2 next.2) :: rest).Pairwise fun a b => a.1 ≤ b.1 :=
        List.pairwise_cons.mpr ⟨least, later.of_cons⟩
      rw [ih extended, covers_cons, covers_cons, covers_cons, ← or_assoc]
      refine or_congr_left ?_
      omega
    · rw [covers_cons, ih later, covers_cons (i := last)]

theorem separated_mergeFrom (sorted : (last :: rest).Pairwise fun a b => a.1 ≤ b.1) :
    (mergeFrom last rest).Pairwise fun a b => a.2 + 1 < b.1 := by
  induction rest generalizing last with
  | nil => exact List.pairwise_singleton _ _
  | cons next rest ih =>
    obtain ⟨least, later⟩ := List.pairwise_cons.mp sorted
    obtain ⟨here, least⟩ := List.forall_mem_cons.mp least
    rw [mergeFrom]
    split_ifs with touch
    · exact ih (List.pairwise_cons.mpr ⟨least, later.of_cons⟩)
    · refine List.pairwise_cons.mpr ⟨fun i mem => ?_, ih later⟩
      have beyond : next.1 ≤ i.1 := forall_mergeFrom (P := fun a => next.1 ≤ a.1)
        (fun _ _ first _ => first) (le_refl next.1) (List.pairwise_cons.mp later).1 i mem
      omega

theorem forall_merge {P : ℤ × ℤ → Prop} (joined : ∀ a b, P a → P b → P (a.1, max a.2 b.2))
    (all : ∀ i ∈ intervals, P i) : ∀ i ∈ merge intervals, P i := by
  cases intervals with
  | nil => exact fun _ mem => absurd mem List.not_mem_nil
  | cons first rest =>
    obtain ⟨here, later⟩ := List.forall_mem_cons.mp all
    exact forall_mergeFrom joined here later

/-- **Merging keeps the integers.** -/
theorem covers_merge (sorted : intervals.Pairwise fun a b => a.1 ≤ b.1) (n : ℤ) :
    Covers (merge intervals) n ↔ Covers intervals n := by
  cases intervals with
  | nil => exact Iff.rfl
  | cons first rest => exact covers_mergeFrom sorted n

/-- **Merged intervals neither overlap nor touch.** -/
theorem separated_merge (sorted : intervals.Pairwise fun a b => a.1 ≤ b.1) :
    (merge intervals).Pairwise fun a b => a.2 + 1 < b.1 := by
  cases intervals with
  | nil => exact .nil
  | cons first rest => exact separated_mergeFrom sorted

end Intervals
