import Mathlib.Order.Lattice

/-!
# Boards of views, refreshed selectively

A board keeps one view per place, each computed from a common source. Refreshing only some places
is as good as refreshing all of them when the views of the others have not moved. Where a view
depends on a clock only through a deadline that the clock has passed or not, a place need be
refreshed only once after its deadline.

## Main definitions

* `Board.ShowsOff view dirty source board`: the board shows the views of the source outside the
  dirty places
* `Board.refresh view selected source board`: the selected places are computed anew
* `Board.Passed deadline now`: the clock has passed a deadline, if there is one

## Main results

* `ShowsOff.refresh`: a selective refresh shows every view
* `passed_iff_of_serviced`: between two times a place that is not due stays on its side of the
  deadline
-/

namespace Board

section Views

variable {C E : Type*} {V : C → Type*} {view : ∀ c, E → V c}

/-- The board shows the views of the source outside the dirty places. -/
def ShowsOff (view : ∀ c, E → V c) (dirty : C → Prop) (source : E) (board : ∀ c, V c) : Prop :=
  ∀ c, ¬ dirty c → board c = view c source

/-- The board with the selected places computed anew. -/
def refresh (view : ∀ c, E → V c) (selected : C → Bool) (source : E) (board : ∀ c, V c) (c : C) :
    V c :=
  if selected c then view c source else board c

variable {dirty dirty' : C → Prop} {source source' : E} {board : ∀ c, V c}

/-- A board keeps showing what has not moved. -/
theorem ShowsOff.move (shows : ShowsOff view dirty source board)
    (still : ∀ c, ¬ dirty' c → ¬ dirty c ∧ view c source' = view c source) :
    ShowsOff view dirty' source' board := by
  intro c hc
  obtain ⟨clean, same⟩ := still c hc
  rw [shows c clean, same]

/-- **A selective refresh shows every view**, provided the places left out were clean and their
views have not moved. -/
theorem ShowsOff.refresh {selected : C → Bool} (shows : ShowsOff view dirty source board)
    (still : ∀ c, selected c = false → ¬ dirty c ∧ view c source' = view c source) (c : C) :
    Board.refresh view selected source' board c = view c source' := by
  cases h : selected c with
  | true => rw [Board.refresh, if_pos h]
  | false =>
    obtain ⟨clean, same⟩ := still c h
    rw [Board.refresh, if_neg (by rw [h]; exact Bool.false_ne_true), shows c clean, same]

end Views

section Deadlines

variable {T : Type*} [LinearOrder T] {deadline : Option T} {now later : T}

/-- The clock has passed a deadline. -/
def Passed (deadline : Option T) (now : T) : Prop := ∃ due ∈ deadline, due < now

theorem not_passed_none : ¬ Passed none now := by
  rintro ⟨due, hdue, -⟩
  cases hdue

theorem passed_some {due : T} : Passed (some due) now ↔ due < now := by
  constructor
  · rintro ⟨due', hdue, hlt⟩
    cases hdue
    exact hlt
  · intro hlt
    exact ⟨due, rfl, hlt⟩

/-- A deadline that has passed stays passed. -/
theorem Passed.mono (passed : Passed deadline now) (le : now ≤ later) : Passed deadline later := by
  obtain ⟨due, hdue, hlt⟩ := passed
  exact ⟨due, hdue, lt_of_lt_of_le hlt le⟩

/-- **A place that is not due stays on its side of the deadline**: if its deadline has passed by
now only where it was serviced, and it was serviced only after its deadline had passed, then it
passed no deadline in between. -/
theorem passed_iff_of_serviced {serviced : Prop} (le : now ≤ later)
    (marked : serviced → Passed deadline now) (idle : Passed deadline later → serviced) :
    Passed deadline now ↔ Passed deadline later := by
  constructor
  · intro passed
    exact passed.mono le
  · intro passed
    exact marked (idle passed)

end Deadlines

end Board
