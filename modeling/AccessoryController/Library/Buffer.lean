import Mathlib.Data.List.Basic

/-!
# Fixed buffers written at a cursor

A writer fills a buffer of fixed size from a position on, one element after the other.

## Main definitions

* `Buffer.storeAt buffer position data`: the buffer after `data` was written from `position` on

## Main results

* `Buffer.take_storeAt`: what was written up to the cursor, with the new data after it
-/

namespace Buffer

variable {α : Type*} {n : ℕ}

/-- Writes `data` from `position` on. An element past the end is not stored. -/
def storeAt (buffer : Vector α n) (position : ℕ) : List α → Vector α n
  | [] => buffer
  | x :: data => storeAt (buffer.setIfInBounds position x) (position + 1) data

theorem toList_setIfInBounds (buffer : Vector α n) (position : ℕ) (x : α) :
    (buffer.setIfInBounds position x).toList = buffer.toList.set position x := by
  cases buffer with
  | mk xs h => simp [Vector.setIfInBounds, Vector.toList]

/-- **Writing at the cursor** appends to what was written before it. -/
theorem take_storeAt (buffer : Vector α n) (position : ℕ) (data : List α)
    (fits : position + data.length ≤ n) :
    (storeAt buffer position data).toList.take (position + data.length) =
      buffer.toList.take position ++ data := by
  induction data generalizing buffer position with
  | nil => simp [storeAt]
  | cons x data ih =>
    have hlt : position < buffer.toList.length := by simp at fits ⊢; omega
    have hnext : position + 1 + data.length ≤ n := by simp at fits; omega
    have hlen : position + (x :: data).length = position + 1 + data.length := by simp; omega
    have htake : (buffer.toList.set position x).take (position + 1) =
        buffer.toList.take position ++ [x] := by
      rw [List.take_add_one, List.take_set_of_le (Nat.le_refl _), List.getElem?_set_self hlt]
      rfl
    rw [hlen, storeAt, ih _ _ hnext, toList_setIfInBounds, htake]
    simp

end Buffer
