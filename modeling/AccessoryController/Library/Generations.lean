import AccessoryController.Library.Machine
import Mathlib.Logic.Function.Iterate

/-!
# Generations

A place of a table is held by one holder after another. The generation of the place moves on with
every holder, so that a name made of the place and the generation of its holder is not taken for
a name of a later one, for as long as the generations have not come round.

## Main definitions

* `Cell A`: a place, with the generation of its last holder and its holder of type `A`
* `Step next`: what an event does to a place, where `next` is the successor of generations
* `Run next`: the same for a list of events
* `takes events`: how often a place was taken
* `Left generation events`: the holder of a generation was sent away

## Main results

* `run_of_moves`: a machine of which each step does an event to a place runs it
* `Run.kept_or_left`: a holder is there until it is freed
* `Run.named_iff`: a generation names its holder exactly while that is there
-/

namespace Generations

universe u

variable {A : Type u}

/-- A place of a table: the generation of its last holder, and its holder if it has one. -/
structure Cell (A : Type u) where
  generation : ℕ
  holder : Option A

/-- The place has a holder, of that generation. -/
def Cell.Named (generation : ℕ) (cell : Cell A) : Prop :=
  cell.generation = generation ∧ cell.holder.isSome = true

/-- What may happen to a place. -/
inductive Event
  | taken
  | freed (generation : ℕ)
  | cleared
  | kept
  deriving DecidableEq

/-- A place is taken while it is vacant, freed of the holder of a generation, or cleared of
whichever holder it has. -/
inductive Step (next : ℕ → ℕ) : Cell A → Event → Cell A → Prop
  | taken (generation : ℕ) (holder : A) :
      Step next ⟨generation, none⟩ .taken ⟨next generation, some holder⟩
  | freed (generation : ℕ) (holder : A) :
      Step next ⟨generation, some holder⟩ (.freed generation) ⟨generation, none⟩
  | cleared (cell : Cell A) : Step next cell .cleared ⟨cell.generation, none⟩
  | kept (cell : Cell A) : Step next cell .kept cell

inductive Run (next : ℕ → ℕ) : Cell A → List Event → Cell A → Prop
  | nil (cell : Cell A) : Run next cell [] cell
  | cons {cell cell' cell'' : Cell A} {event : Event} {events : List Event} :
      Step next cell event cell' → Run next cell' events cell'' →
        Run next cell (event :: events) cell''

/-- How often a place was taken. -/
def takes (events : List Event) : ℕ := events.countP fun event => decide (event = .taken)

/-- The holder of a generation was sent away. -/
def Left (generation : ℕ) (events : List Event) : Prop :=
  .freed generation ∈ events ∨ .cleared ∈ events

theorem left_cons {generation : ℕ} {event : Event} {events : List Event} :
    Left generation (event :: events) ↔
      (event = .freed generation ∨ event = .cleared) ∨ Left generation events := by
  simp only [Left, List.mem_cons, eq_comm (a := event)]
  tauto

variable (events : List Event)

@[simp] theorem takes_cons_taken : takes (.taken :: events) = takes events + 1 := by simp [takes]

@[simp] theorem takes_cons_freed (generation : ℕ) (events : List Event) :
    takes (.freed generation :: events) = takes events := by simp [takes]

@[simp] theorem takes_cons_cleared : takes (.cleared :: events) = takes events := by simp [takes]

@[simp] theorem takes_cons_kept : takes (.kept :: events) = takes events := by simp [takes]

variable {next : ℕ → ℕ} {cell cell' : Cell A} {events : List Event}

/-- The generation of a place counts its holders. -/
theorem Run.generation (run : Run next cell events cell') :
    cell'.generation = Nat.iterate next (takes events) cell.generation := by
  induction run with
  | nil => rfl
  | cons step _ ih =>
    rw [ih]
    cases step with
    | taken => rw [takes_cons_taken, Function.iterate_succ_apply]
    | freed => rw [takes_cons_freed]
    | cleared => rw [takes_cons_cleared]
    | kept => rw [takes_cons_kept]

/-- A vacant place that is not taken stays vacant. -/
theorem Run.vacant (run : Run next cell events cell') (vacant : cell.holder = none)
    (untaken : takes events = 0) : cell'.holder = none := by
  induction run with
  | nil => exact vacant
  | cons step _ ih =>
    cases step with
    | taken => rw [takes_cons_taken] at untaken; omega
    | freed => cases vacant
    | cleared => rw [takes_cons_cleared] at untaken; exact ih rfl untaken
    | kept => rw [takes_cons_kept] at untaken; exact ih vacant untaken

/-- **A holder is there until it is sent away**, and then the place is vacant until it is taken. -/
theorem Run.kept_or_left {generation : ℕ} {holder : A}
    (run : Run next ⟨generation, some holder⟩ events cell') :
    (¬Left generation events ∧ cell' = ⟨generation, some holder⟩) ∨
      (Left generation events ∧ (takes events = 0 → cell'.holder = none)) := by
  generalize hcell : (⟨generation, some holder⟩ : Cell A) = cell at run
  induction run with
  | nil => exact Or.inl ⟨by simp [Left], rfl⟩
  | cons step rest ih =>
    rw [left_cons]
    cases step with
    | taken => cases hcell
    | freed =>
      obtain ⟨rfl, -⟩ := Cell.mk.inj hcell
      refine Or.inr ⟨Or.inl (Or.inl rfl), fun untaken => rest.vacant rfl ?_⟩
      rwa [takes_cons_freed] at untaken
    | cleared =>
      refine Or.inr ⟨Or.inl (Or.inr rfl), fun untaken => rest.vacant rfl ?_⟩
      rwa [takes_cons_cleared] at untaken
    | kept => simpa using ih hcell

/-- **A generation names its holder exactly while that is there**, where the generations of the
holders since do not come round to it. -/
theorem Run.named_iff {generation : ℕ} {holder : A}
    (run : Run next ⟨generation, some holder⟩ events cell')
    (distinct : ∀ n, 0 < n → n ≤ takes events → Nat.iterate next n generation ≠ generation) :
    cell'.Named generation ↔ ¬Left generation events := by
  rcases run.kept_or_left with ⟨present, rfl⟩ | ⟨gone, left⟩
  · exact iff_of_true ⟨rfl, rfl⟩ present
  · refine iff_of_false ?_ (not_not_intro gone)
    rintro ⟨same, held⟩
    rcases Nat.eq_zero_or_pos (takes events) with untaken | taken
    · rw [left untaken] at held
      cases held
    · exact distinct _ taken (Nat.le_refl _) (run.generation.symm.trans same)

section Machine

variable {S I O : Type*} {step : S → I → S × O}

/-- **A machine runs a place** where each of its steps does an event to it. -/
theorem run_of_moves {cells : S → Cell A} {event : S → I → Event} (invariant : S → Prop)
    (keep : ∀ s i, invariant s → invariant (step s i).1)
    (simulates : ∀ s i, invariant s → Step next (cells s) (event s i) (cells (step s i).1))
    (is : List I) {s : S} (start : invariant s) :
    Run next (cells s) ((Machine.moves step s is).map fun move => event move.1 move.2)
      (cells (Machine.after step s is)) := by
  induction is generalizing s with
  | nil => exact Run.nil _
  | cons i is ih => exact Run.cons (simulates s i start) (ih (keep s i start))

end Machine

end Generations
