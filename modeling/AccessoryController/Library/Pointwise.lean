import Mathlib.Data.List.Basic

/-!
# Folds that touch one coordinate at a time

A loop whose iterations each change one coordinate of a state, no coordinate twice, changes every
coordinate by the iteration that touches it, if there is one, and leaves the others alone. What it
reports of the coordinates is what it finds in them at the start.

## Main results

* `Pointwise.foldl`: the effect of such a loop on a coordinate
* `Pointwise.foldl_reports`: the list that such a loop fills
-/

namespace Pointwise

variable {S K V X : Type*} [DecidableEq K]

/-- **A loop over distinct coordinates** acts on each of them once. -/
theorem foldl {I : S → Prop} (view : S → K → V) (key : X → K) (act : X → V → V)
    {f : S → X → S} {l : List X} (keep : ∀ s, ∀ x ∈ l, I s → I (f s x))
    (touch : ∀ s, ∀ x ∈ l, I s → view (f s x) (key x) = act x (view s (key x)))
    (frame : ∀ s, ∀ x ∈ l, I s → ∀ k, k ≠ key x → view (f s x) k = view s k)
    (nodup : (l.map key).Nodup) {s : S} (start : I s) (k : K) :
    view (l.foldl f s) k =
      (l.find? fun x => key x = k).elim (view s k) fun x => act x (view s k) := by
  induction l generalizing s with
  | nil => rfl
  | cons x l ih =>
    have hx : x ∈ x :: l := List.mem_cons_self
    obtain ⟨hnot, hnodup⟩ := List.nodup_cons.mp nodup
    rw [List.foldl_cons, ih (fun s y hy => keep s y (List.mem_cons_of_mem x hy))
      (fun s y hy => touch s y (List.mem_cons_of_mem x hy))
      (fun s y hy => frame s y (List.mem_cons_of_mem x hy)) hnodup (keep s x hx start),
      List.find?_cons]
    by_cases hk : key x = k
    · -- no later iteration touches the coordinate again
      have hlate : (l.find? fun y => key y = k) = none := by
        rw [List.find?_eq_none]
        intro y hy heq
        refine hnot (List.mem_map.mpr ⟨y, hy, ?_⟩)
        rw [hk]
        exact of_decide_eq_true heq
      subst hk
      simp only [hlate, decide_true, Option.elim_none, Option.elim_some]
      exact touch s x hx start
    · rw [frame s x hx start k (Ne.symm hk)]
      simp only [hk, decide_false]

omit [DecidableEq K] in
/-- **A loop that fills a list of bounded size** with the names of coordinates drops none of them:
it appends, in order, the names of those that it finds to meet its condition. -/
theorem foldl_reports {A : Type*} {I : S → Prop} (view : S → K → V) (key : X → K)
    (out : S → List A) (name : X → A) (reports : X → V → Bool) (capacity : ℕ)
    {f : S → X → S} {l : List X} (keep : ∀ s, ∀ x ∈ l, I s → I (f s x))
    (frame : ∀ s, ∀ x ∈ l, I s → ∀ k, k ≠ key x → view (f s x) k = view s k)
    (report : ∀ s, ∀ x ∈ l, I s → name x ∉ out s → (out s).length < capacity →
      out (f s x) = if reports x (view s (key x)) then out s ++ [name x] else out s)
    (nodup : (l.map key).Nodup) (distinct : (l.map name).Nodup) {s : S} (start : I s)
    (apart : ∀ x ∈ l, name x ∉ out s) (room : (out s).length + l.length ≤ capacity) :
    out (l.foldl f s) = out s ++ (l.filter fun x => reports x (view s (key x))).map name := by
  induction l generalizing s with
  | nil => rw [List.foldl_nil, List.filter_nil, List.map_nil, List.append_nil]
  | cons x l ih =>
    have hx : x ∈ x :: l := List.mem_cons_self
    obtain ⟨hnot, hnodup⟩ := List.nodup_cons.mp nodup
    obtain ⟨fresh, hdistinct⟩ := List.nodup_cons.mp distinct
    rw [List.length_cons] at room
    have first := report s x hx start (apart x hx) (by omega)
    -- the later coordinates are as the loop found them
    have later : (l.filter fun y => reports y (view (f s x) (key y))) =
        l.filter fun y => reports y (view s (key y)) := by
      refine List.filter_congr fun y hy => ?_
      rw [frame s x hx start (key y) fun same => hnot (same ▸ List.mem_map_of_mem hy)]
    have outside : ∀ y ∈ l, name y ∉ out (f s x) := by
      intro y hy mem
      have old := apart y (List.mem_cons_of_mem x hy)
      rw [first] at mem
      split at mem
      · rcases List.mem_append.mp mem with mem | mem
        · exact old mem
        · exact fresh (List.mem_singleton.mp mem ▸ List.mem_map_of_mem hy)
      · exact old mem
    have fits : (out (f s x)).length + l.length ≤ capacity := by
      rw [first]
      split
      · rw [List.length_append, List.length_singleton]
        omega
      · omega
    rw [List.foldl_cons, ih (fun s y hy => keep s y (List.mem_cons_of_mem x hy))
      (fun s y hy => frame s y (List.mem_cons_of_mem x hy))
      (fun s y hy => report s y (List.mem_cons_of_mem x hy)) hnodup hdistinct
      (keep s x hx start) outside fits, later, first, List.filter_cons]
    split
    · rw [List.map_cons, List.append_assoc, List.singleton_append]
    · rfl

end Pointwise
