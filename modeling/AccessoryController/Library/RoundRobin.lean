import Mathlib.Algebra.Group.Nat.Defs
import Mathlib.Logic.Function.Iterate
import Mathlib.Tactic.SplitIfs

/-!
# Round-robin service

The clients `1, …, n` stand in a circle. A round serves the clients that are due in their order
around the circle, starting at a cursor; it either passes all of them, or stops and leaves the
cursor at the client where it stopped. If a round that stops has passed at least `k` clients, then
a client that stays due is served within `n / k` rounds, rounded up.

## Main definitions

* `RoundRobin.next n c`: the client after `c`
* `RoundRobin.Round n k due served c c'`: a round from the cursor `c` to the cursor `c'`
* `RoundRobin.Waits n k c h m`: how far the client `h` may stand from the cursor after `m` rounds

## Main results

* `RoundRobin.iterate_next`: the clients in their order around the circle
* `RoundRobin.Round.waits`: a round serves a client that is due, or brings the cursor closer
-/

namespace RoundRobin

variable {n k : ℕ}

/-- The client after a client. -/
def next (n c : ℕ) : ℕ := if n ≤ c then 1 else c + 1

/-- The clients of a circle. -/
def Client (n c : ℕ) : Prop := 1 ≤ c ∧ c ≤ n

theorem Client.next {c : ℕ} (h : Client n c) : Client n (RoundRobin.next n c) := by
  obtain ⟨hpos, hle⟩ := h
  unfold RoundRobin.next Client
  split <;> omega

/-- The clients in their order around the circle. -/
theorem iterate_next {c : ℕ} (h : Client n c) {i : ℕ} (hi : i < n) :
    (next n)^[i] c = if c + i ≤ n then c + i else c + i - n := by
  obtain ⟨hpos, hle⟩ := h
  induction i with
  | zero => rw [Function.iterate_zero_apply, Nat.add_zero, if_pos hle]
  | succ i ih =>
    rw [Function.iterate_succ_apply', ih (Nat.lt_of_succ_lt hi)]
    unfold next
    -- the end of the circle is passed once
    split_ifs <;> omega

theorem Client.iterate {c : ℕ} (h : Client n c) {i : ℕ} (hi : i < n) :
    Client n ((RoundRobin.next n)^[i] c) := by
  rw [iterate_next h hi]
  obtain ⟨hpos, hle⟩ := h
  unfold Client
  split <;> omega

/-- A client does not come up twice on the way around the circle. -/
theorem iterate_next_inj {c : ℕ} (h : Client n c) {i j : ℕ} (hi : i < n) (hj : j < n)
    (eq : (next n)^[i] c = (next n)^[j] c) : i = j := by
  rw [iterate_next h hi, iterate_next h hj] at eq
  obtain ⟨hpos, hle⟩ := h
  split_ifs at eq <;> omega

/-- Every client comes up on the way around the circle. -/
theorem exists_iterate_next {c h : ℕ} (hc : Client n c) (hh : Client n h) :
    ∃ d, d < n ∧ (next n)^[d] c = h := by
  obtain ⟨hpos, hle⟩ := hc
  obtain ⟨hpos', hle'⟩ := hh
  have hd : (if c ≤ h then h - c else h + n - c) < n := by split <;> omega
  refine ⟨_, hd, ?_⟩
  rw [iterate_next ⟨hpos, hle⟩ hd]
  split_ifs <;> omega

/-- One round. The clients before the stop that are due are served; a round that stops has passed
`k` clients and leaves the cursor where it stopped. -/
structure Round (n k : ℕ) (due served : ℕ → Prop) (c c' : ℕ) : Prop where
  passes : ∃ stop, stop ≤ n ∧
    (∀ i < stop, due ((next n)^[i] c) → served ((next n)^[i] c)) ∧
    (stop < n → k ≤ stop ∧ c' = (next n)^[stop] c)

/-- After `m` rounds that did not serve it, the client `h` is less than `n - k * m` places after
the cursor. -/
def Waits (n k c h m : ℕ) : Prop := ∃ d, (next n)^[d] c = h ∧ d + k * m < n

theorem waits_zero {c h : ℕ} (hc : Client n c) (hh : Client n h) : Waits n k c h 0 := by
  obtain ⟨d, hd, eq⟩ := exists_iterate_next hc hh
  exact ⟨d, eq, by omega⟩

/-- **A round** serves a client that is due, or brings the cursor closer to it. -/
theorem Round.waits {due served : ℕ → Prop} {c c' h m : ℕ} (round : Round n k due served c c')
    (hdue : due h) (waits : Waits n k c h m) : served h ∨ Waits n k c' h (m + 1) := by
  obtain ⟨stop, hstop, hserved, hcursor⟩ := round.passes
  obtain ⟨d, rfl, hd⟩ := waits
  by_cases passed : d < stop
  · exact Or.inl (hserved d passed hdue)
  · -- the round stopped at the client or before it
    obtain ⟨far, rfl⟩ := hcursor (by omega)
    refine Or.inr ⟨d - stop, ?_, ?_⟩
    · rw [← Function.iterate_add_apply, Nat.sub_add_cancel (Nat.le_of_not_lt passed)]
    · rw [Nat.mul_succ]
      omega

/-- A client does not wait for `n / k` rounds, rounded up. -/
theorem Waits.lt {c h m : ℕ} (waits : Waits n k c h m) (hk : 0 < k) : m < (n + k - 1) / k := by
  obtain ⟨d, -, hd⟩ := waits
  rw [Nat.lt_div_iff_mul_lt hk]
  have : k * m = m * k := Nat.mul_comm k m
  omega

end RoundRobin
