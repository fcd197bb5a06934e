import Mathlib.Order.Basic
import Mathlib.Data.Nat.Init

/-!
# Loops that leave when a condition fails

A loop body either leaves the loop or gives the next state. The loop is run with a number of
rounds at hand; a loop that has a variant leaves with any number of rounds beyond it, and always
in the same state, so that the number never shows in the result.

## Main definitions

* `While.run body fuel s`: the state in which the loop leaves, within `fuel` rounds

## Main results

* `While.run_keeps`: the partial-correctness rule, an invariant
* `While.run_of_variant`: the total-correctness rule, an invariant with a variant
-/

namespace While

variable {S : Type*} {body : S → Option S}

/-- The state in which the loop leaves when it starts in `s`, or `none` when the rounds run out
first. The body answers `none` to leave. -/
def run (body : S → Option S) : ℕ → S → Option S
  | 0, _ => none
  | fuel + 1, s =>
    match body s with
    | none => some s
    | some next => run body fuel next

theorem run_leave {s : S} (leave : body s = none) (fuel : ℕ) : run body (fuel + 1) s = some s := by
  simp only [run, leave]

theorem run_round {s next : S} (round : body s = some next) (fuel : ℕ) :
    run body (fuel + 1) s = run body fuel next := by
  simp only [run, round]

/-- An invariant that every round keeps holds of the state in which the loop leaves. -/
theorem run_keeps {inv : S → Prop} (keep : ∀ s next, inv s → body s = some next → inv next)
    {fuel : ℕ} {s last : S} (start : inv s) (leaves : run body fuel s = some last) : inv last := by
  induction fuel generalizing s with
  | zero => exact nomatch leaves
  | succ fuel ih =>
    rcases round : body s with _ | next
    · rw [run_leave round] at leaves
      obtain rfl := Option.some.inj leaves
      exact start
    · rw [run_round round] at leaves
      exact ih (keep s next start round) leaves

/-- **The loop rule**: an invariant that every round keeps, with a variant that every round
lowers, holds of the state in which the loop leaves, and any number of rounds beyond the variant
leads there. -/
theorem run_of_variant {inv : S → Prop} {variant : S → ℕ}
    (keep : ∀ s next, inv s → body s = some next → inv next ∧ variant next < variant s)
    {s : S} (start : inv s) :
    ∃ last, inv last ∧ body last = none ∧ ∀ fuel, variant s < fuel → run body fuel s = some last := by
  -- A round lowers the variant, so one round fewer is still enough for what follows it.
  induction size : variant s using Nat.strong_induction_on generalizing s with
  | _ n ih =>
    rcases round : body s with _ | next
    · refine ⟨s, start, round, fun fuel enough => ?_⟩
      obtain ⟨k, rfl⟩ := Nat.exists_eq_succ_of_ne_zero (Nat.ne_zero_of_lt enough)
      exact run_leave round k
    · obtain ⟨kept, lower⟩ := keep s next start round
      obtain ⟨last, holds, left, runs⟩ := ih (variant next) (size ▸ lower) kept rfl
      refine ⟨last, holds, left, fun fuel enough => ?_⟩
      obtain ⟨k, rfl⟩ := Nat.exists_eq_succ_of_ne_zero (Nat.ne_zero_of_lt enough)
      rw [run_round round]
      exact runs k (by omega)

end While
