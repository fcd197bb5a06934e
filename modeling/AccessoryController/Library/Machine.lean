import Mathlib.Data.List.Induction

/-!
# Machines, their runs and their traces

A machine answers each input from its state: `step s i` is the next state together with the
output. A run is the list of its inputs; its trace records every input with the output it got.
An invariant may speak about the state and the trace together, so that history need not be
stored in the state.

## Main definitions

* `Machine.after step s is`: the state reached from `s` on the inputs `is`
* `Machine.trace step s is`: the inputs of the run, each with its output
* `Machine.moves step s is`: the inputs of the run, each with the state that it met

## Main results

* `Machine.invariant`: what one step preserves holds after every run
* `Machine.keeps_along`: the same for the runs whose moves all meet a condition
-/

namespace Machine

variable {S I O : Type*}

/-- The state reached from `s` on the inputs `is`. -/
def after (step : S → I → S × O) (s : S) (is : List I) : S :=
  is.foldl (fun s i => (step s i).1) s

/-- The inputs of a run in order, each with the output it got. -/
def trace (step : S → I → S × O) : S → List I → List (I × O)
  | _, [] => []
  | s, i :: is => (i, (step s i).2) :: trace step (step s i).1 is

variable (step : S → I → S × O)

variable (s : S)

@[simp] theorem after_nil : after step s [] = s := rfl

@[simp] theorem trace_nil : trace step s [] = [] := rfl

theorem after_append (is js : List I) :
    after step s (is ++ js) = after step (after step s is) js := List.foldl_append

@[simp] theorem after_snoc (is : List I) (i : I) :
    after step s (is ++ [i]) = (step (after step s is) i).1 := by
  rw [after_append]; rfl

theorem trace_append (is js : List I) :
    trace step s (is ++ js) = trace step s is ++ trace step (after step s is) js := by
  induction is generalizing s with
  | nil => rfl
  | cons i is ih => simp only [List.cons_append, trace, ih]; rfl

@[simp] theorem trace_snoc (is : List I) (i : I) :
    trace step s (is ++ [i]) = trace step s is ++ [(i, (step (after step s is) i).2)] := by
  rw [trace_append]; rfl

/-- The inputs of a run in order, each with the state that it met. -/
def moves (step : S → I → S × O) : S → List I → List (S × I)
  | _, [] => []
  | s, i :: is => (s, i) :: moves step (step s i).1 is

theorem moves_append (is js : List I) :
    moves step s (is ++ js) = moves step s is ++ moves step (after step s is) js := by
  induction is generalizing s with
  | nil => rfl
  | cons i is ih => simp only [List.cons_append, moves, ih]; rfl

@[simp] theorem moves_snoc (is : List I) (i : I) :
    moves step s (is ++ [i]) = moves step s is ++ [(after step s is, i)] := by
  rw [moves_append]; rfl

/-- The inputs of the moves are the inputs of the run. -/
theorem map_snd_moves (is : List I) : (moves step s is).map Prod.snd = is := by
  induction is generalizing s with
  | nil => rfl
  | cons i is ih => rw [moves, List.map_cons, ih]

/-- The trace of a run is what its moves were answered. -/
theorem trace_eq_map_moves (is : List I) :
    trace step s is = (moves step s is).map fun move => (move.2, (step move.1 move.2).2) := by
  induction is generalizing s with
  | nil => rfl
  | cons i is ih => rw [trace, moves, List.map_cons, ih]

/-- **The invariant rule**: what holds at the start with an empty history and is preserved by
one step holds after every run, of its state and its trace. -/
theorem invariant {step : S → I → S × O} {s₀ : S} {P : S → List (I × O) → Prop}
    (start : P s₀ [])
    (keep : ∀ s h i, P s h → P (step s i).1 (h ++ [(i, (step s i).2)])) (is : List I) :
    P (after step s₀ is) (trace step s₀ is) := by
  induction is using List.reverseRecOn with
  | nil => exact start
  | append_singleton is i ih =>
    rw [after_snoc, trace_snoc]
    exact keep _ _ i ih

/-- The invariant rule for the moves of a run. -/
theorem invariant_moves {step : S → I → S × O} {s₀ : S} {P : S → List (S × I) → Prop}
    (start : P s₀ []) (keep : ∀ s h i, P s h → P (step s i).1 (h ++ [(s, i)])) (is : List I) :
    P (after step s₀ is) (moves step s₀ is) := by
  induction is using List.reverseRecOn with
  | nil => exact start
  | append_singleton is i ih =>
    rw [after_snoc, moves_snoc]
    exact keep _ _ i ih

/-- The invariant rule for a run whose moves all meet a condition. -/
theorem keeps_along {step : S → I → S × O} {P : S → Prop} {admitted : S × I → Prop}
    (keep : ∀ s i, P s → admitted (s, i) → P (step s i).1) {s : S} (start : P s) {is : List I}
    (along : ∀ move ∈ moves step s is, admitted move) : P (after step s is) := by
  induction is generalizing s with
  | nil => exact start
  | cons i is ih =>
    exact ih (keep s i start (along _ List.mem_cons_self)) fun move mem =>
      along move (List.mem_cons_of_mem _ mem)

end Machine
