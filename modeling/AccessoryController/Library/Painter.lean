import Mathlib.Data.List.Induction

/-!
# Painting layers in the order of their ranks

Layers are sorted stably by rank and drawn from the bottom up. Each owns what it covers, so that at
every point the topmost covering layer is seen: the one of greatest rank, and among these the one
that was listed last.

## Main definitions

* `Painter.fromTop rank layers`: the layers, sorted from the top
* `Painter.Topmost`: the topmost layer with a property, by rank and then by position

## Main results

* `Painter.find?_fromTop`, `Painter.Topmost.find?`: the search from the top finds the topmost layer
* `Painter.read_paint`: what is seen after painting
-/

namespace Painter

variable {L : Type} (rank : L → ℕ)

/-- Moves a layer down a stack, given from its top, past the layers of higher rank. -/
def insertFromTop (layer : L) : List L → List L
  | [] => [layer]
  | top :: below =>
    if rank layer < rank top then top :: insertFromTop layer below else layer :: top :: below

/-- The layers sorted from the top: a later layer goes above the earlier ones of its rank. -/
def fromTop (layers : List L) : List L :=
  layers.foldl (fun sorted layer => insertFromTop rank layer sorted) []

/-- The layer at a position is the topmost one with a property. -/
structure Topmost (covers : L → Prop) (layers : List L) (i : ℕ) (layer : L) : Prop where
  listed : layers[i]? = some layer
  seen : covers layer
  above : ∀ j other, layers[j]? = some other → covers other →
    rank other < rank layer ∨ rank other = rank layer ∧ j ≤ i

variable {rank} {covers : L → Prop} {layers : List L}

/-- There is one topmost layer at most. -/
theorem Topmost.unique {i j : ℕ} {layer other : L} (top : Topmost rank covers layers i layer)
    (top' : Topmost rank covers layers j other) : i = j ∧ layer = other := by
  have below := top.above j other top'.listed top'.seen
  have above := top'.above i layer top.listed top.seen
  have same : i = j := by omega
  subst same
  exact ⟨rfl, Option.some.inj (top.listed.symm.trans top'.listed)⟩

theorem mem_insertFromTop {layer other : L} {s : List L} :
    other ∈ insertFromTop rank layer s ↔ other = layer ∨ other ∈ s := by
  induction s with
  | nil => simp [insertFromTop]
  | cons top below ih =>
    rw [insertFromTop]
    split_ifs
    · rw [List.mem_cons, ih, List.mem_cons]
      exact or_left_comm
    · exact List.mem_cons

/-- Insertion keeps the ranks descending. -/
theorem pairwise_insertFromTop (layer : L) {s : List L}
    (sorted : s.Pairwise fun upper lower => rank lower ≤ rank upper) :
    (insertFromTop rank layer s).Pairwise fun upper lower => rank lower ≤ rank upper := by
  induction s with
  | nil => exact List.pairwise_singleton _ _
  | cons top below ih =>
    obtain ⟨first, rest⟩ := List.pairwise_cons.mp sorted
    rw [insertFromTop]
    split_ifs with lower
    · refine List.pairwise_cons.mpr ⟨fun other mem => ?_, ih rest⟩
      rcases mem_insertFromTop.mp mem with rfl | mem
      · exact Nat.le_of_lt lower
      · exact first other mem
    · refine List.pairwise_cons.mpr ⟨fun other mem => ?_, sorted⟩
      rcases List.mem_cons.mp mem with rfl | mem
      · exact Nat.le_of_not_lt lower
      · exact Nat.le_trans (first other mem) (Nat.le_of_not_lt lower)

variable [DecidablePred covers]

/-- The first covering layer after an insertion: the new one, unless one of higher rank covers. -/
theorem find?_insertFromTop (layer : L) {s : List L}
    (sorted : s.Pairwise fun upper lower => rank lower ≤ rank upper) :
    (insertFromTop rank layer s).find? (fun l => covers l) =
      if covers layer ∧ ∀ w ∈ s, covers w → rank w ≤ rank layer then some layer
      else s.find? fun l => covers l := by
  induction s with
  | nil => by_cases here : covers layer <;> simp [insertFromTop, here]
  | cons top below ih =>
    obtain ⟨first, rest⟩ := List.pairwise_cons.mp sorted
    rw [insertFromTop]
    by_cases lower : rank layer < rank top
    · rw [if_pos lower]
      by_cases seen : covers top
      · -- The upper layer is seen before and after.
        have hidden : ¬ (covers layer ∧ ∀ w ∈ top :: below, covers w → rank w ≤ rank layer) :=
          fun all => Nat.not_le.mpr lower (all.2 top List.mem_cons_self seen)
        rw [if_neg hidden, List.find?_cons_of_pos (by simpa using seen),
          List.find?_cons_of_pos (by simpa using seen)]
      · have same : (∀ w ∈ top :: below, covers w → rank w ≤ rank layer) ↔
            ∀ w ∈ below, covers w → rank w ≤ rank layer := by
          rw [List.forall_mem_cons]
          exact and_iff_right fun seen' => absurd seen' seen
        rw [List.find?_cons_of_neg (by simpa using seen),
          List.find?_cons_of_neg (by simpa using seen), ih rest]
        simp only [same]
    · rw [if_neg lower]
      by_cases here : covers layer
      · have above : ∀ w ∈ top :: below, covers w → rank w ≤ rank layer := by
          intro w mem _
          rcases List.mem_cons.mp mem with rfl | mem
          · exact Nat.le_of_not_lt lower
          · exact Nat.le_trans (first w mem) (Nat.le_of_not_lt lower)
        rw [List.find?_cons_of_pos (by simpa using here), if_pos ⟨here, above⟩]
      · rw [List.find?_cons_of_neg (by simpa using here), if_neg fun both => here both.1]

theorem fromTop_append (layers : List L) (layer : L) :
    fromTop rank (layers ++ [layer]) = insertFromTop rank layer (fromTop rank layers) := by
  rw [fromTop, List.foldl_append]
  rfl

theorem pairwise_fromTop (layers : List L) :
    (fromTop rank layers).Pairwise fun upper lower => rank lower ≤ rank upper := by
  induction layers using List.reverseRecOn with
  | nil => exact List.Pairwise.nil
  | append_singleton layers layer ih =>
    rw [fromTop_append]
    exact pairwise_insertFromTop layer ih

theorem mem_fromTop {layer : L} : layer ∈ fromTop rank layers ↔ layer ∈ layers := by
  induction layers using List.reverseRecOn with
  | nil => rfl
  | append_singleton layers last ih =>
    rw [fromTop_append, mem_insertFromTop, ih, List.mem_append, List.mem_singleton]
    exact or_comm

/-- **The first covering layer from the top** is the topmost one. -/
theorem find?_fromTop {layer : L}
    (found : (fromTop rank layers).find? (fun l => covers l) = some layer) :
    ∃ i, Topmost rank covers layers i layer := by
  induction layers using List.reverseRecOn with
  | nil => cases found
  | append_singleton layers last ih =>
    rw [fromTop_append, find?_insertFromTop last (pairwise_fromTop layers)] at found
    split_ifs at found with new
    · cases found
      refine ⟨layers.length, List.getElem?_concat_length .., new.1, fun j other listed seen => ?_⟩
      have bound : j < layers.length + 1 := by
        simpa using (List.getElem?_eq_some_iff.mp listed).1
      rcases Nat.lt_succ_iff_lt_or_eq.mp bound with earlier | rfl
      · rw [List.getElem?_append_left earlier] at listed
        have le := new.2 other (mem_fromTop.mpr (List.mem_of_getElem? listed)) seen
        omega
      · rw [List.getElem?_concat_length] at listed
        cases listed
        exact .inr ⟨rfl, Nat.le_refl _⟩
    · obtain ⟨i, top⟩ := ih found
      have inside := (List.getElem?_eq_some_iff.mp top.listed).1
      refine ⟨i, by rw [List.getElem?_append_left inside, top.listed], top.seen,
        fun j other listed seen => ?_⟩
      have bound : j < layers.length + 1 := by
        simpa using (List.getElem?_eq_some_iff.mp listed).1
      rcases Nat.lt_succ_iff_lt_or_eq.mp bound with earlier | rfl
      · rw [List.getElem?_append_left earlier] at listed
        exact top.above j other listed seen
      · -- The new layer covers as well, so that an older one must outrank it.
        rw [List.getElem?_concat_length] at listed
        cases listed
        refine .inl (Nat.lt_of_not_le fun le => new ⟨seen, fun w mem seen' => ?_⟩)
        obtain ⟨j, at_j⟩ := List.getElem?_of_mem (mem_fromTop.mp mem)
        have := top.above j w at_j seen'
        omega

/-- Where some layer has the property, one is the topmost. -/
theorem exists_topmost (some_seen : ∃ layer ∈ layers, covers layer) :
    ∃ i layer, Topmost rank covers layers i layer := by
  obtain ⟨layer, mem, seen⟩ := some_seen
  have found : ((fromTop rank layers).find? fun l => covers l).isSome := by
    rw [List.find?_isSome]
    exact ⟨layer, mem_fromTop.mpr mem, by simpa using seen⟩
  obtain ⟨top, found⟩ := Option.isSome_iff_exists.mp found
  obtain ⟨i, topmost⟩ := find?_fromTop found
  exact ⟨i, top, topmost⟩

/-- The search from the top finds the topmost layer. -/
theorem Topmost.find? {i : ℕ} {layer : L} (top : Topmost rank covers layers i layer) :
    (fromTop rank layers).find? (fun l => covers l) = some layer := by
  have found : ((fromTop rank layers).find? fun l => covers l).isSome := by
    rw [List.find?_isSome]
    exact ⟨layer, mem_fromTop.mpr (List.mem_of_getElem? top.listed), by simpa using top.seen⟩
  obtain ⟨other, found⟩ := Option.isSome_iff_exists.mp found
  obtain ⟨j, top'⟩ := find?_fromTop found
  rw [found, (top.unique top').2]

/-- **What is seen after painting** from the bottom up. -/
theorem read_paint {F C : Type} (read : F → C) (draw : F → L → F) (alone : L → C)
    (start : F) (s : List L)
    (owned : ∀ l ∈ s, ∀ f, read (draw f l) = if covers l then alone l else read f) :
    read (s.reverse.foldl draw start) =
      ((s.find? fun l => covers l).map alone).getD (read start) := by
  induction s with
  | nil => rfl
  | cons top below ih =>
    rw [List.reverse_cons, List.foldl_append, List.foldl_cons, List.foldl_nil,
      owned top List.mem_cons_self, ih fun l mem => owned l (List.mem_cons_of_mem top mem)]
    by_cases seen : covers top <;> simp [seen]

end Painter
