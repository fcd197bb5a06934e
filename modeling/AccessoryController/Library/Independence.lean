import Mathlib.Data.Set.BooleanAlgebra
import Mathlib.Order.CompletePartialOrder

/-!
# Updates of a state with components

A state is seen through its components. An update is supported on a set of components if it
writes no other ones and what it writes depends on no other ones. Both are asked for on the states
of an invariant, which the update keeps. Updates on disjoint sets commute.

## Main definitions

* `Independence.Supported Inv get A f`: `f` reads and writes the components in `A` only

## Main results

* `Independence.Supported.comm`: updates with disjoint supports commute in every component
-/

namespace Independence

variable {S ι : Type*} {V : ι → Type*}

/-- An update that reads and writes the components in `A` only, on the states of an invariant. -/
structure Supported (Inv : S → Prop) (get : ∀ i, S → V i) (A : Set ι) (f : S → S) : Prop where
  keep : ∀ s, Inv s → Inv (f s)
  frame : ∀ s, Inv s → ∀ i ∉ A, get i (f s) = get i s
  reads : ∀ s t, Inv s → Inv t → (∀ i ∈ A, get i s = get i t) → ∀ i ∈ A, get i (f s) = get i (f t)

variable {Inv : S → Prop} {get : ∀ i, S → V i} {A B : Set ι} {f g : S → S}

/-- An update does not see another one that is supported elsewhere. -/
theorem Supported.unseen (left : Supported Inv get A f) (right : Supported Inv get B g)
    (disjoint : Disjoint A B) {s : S} (inv : Inv s) {i : ι} (mem : i ∈ A) :
    get i (f (g s)) = get i (f s) := by
  refine left.reads _ _ (right.keep s inv) inv (fun j hj => ?_) i mem
  exact right.frame s inv j (Set.disjoint_left.mp disjoint hj)

/-- **Updates with disjoint supports commute** in every component. -/
theorem Supported.comm (left : Supported Inv get A f) (right : Supported Inv get B g)
    (disjoint : Disjoint A B) {s : S} (inv : Inv s) (i : ι) :
    get i (f (g s)) = get i (g (f s)) := by
  by_cases first : i ∈ A
  · have other : i ∉ B := Set.disjoint_left.mp disjoint first
    rw [left.unseen right disjoint inv first, right.frame (f s) (left.keep s inv) i other]
  by_cases second : i ∈ B
  · rw [right.unseen left disjoint.symm inv second, left.frame (g s) (right.keep s inv) i first]
  · rw [left.frame (g s) (right.keep s inv) i first, right.frame s inv i second,
      right.frame (f s) (left.keep s inv) i second, left.frame s inv i first]

end Independence
