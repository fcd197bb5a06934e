import Mathlib.Logic.Basic

/-!
# Programs that may lose power

A program works on a durable state by operations, each of which takes one answer of the world
(that it happened, or how it failed). Power is lost at the operation that finds no answer left, so
a list of answers is both a pattern of failures and a point to cut at.

A triple says what holds when a program returns and what holds where it is cut.

## Main definitions

* `Crash.Prog S W A`: a program on `S` that returns an `A`
* `Crash.operate`: one operation
* `Crash.Triple P m Q C`: from `P`, the program returns in `Q` or is cut in `C`

## Main results

* `Crash.Triple.bind`, `Crash.Triple.operate`: the rules of sequence and operation
-/

namespace Crash

variable {S W A B : Type}

/-- A program on a durable state, with the answers of the world to its operations. -/
def Prog (S W A : Type) : Type := S → List W → Option A × S × List W

instance : Monad (Prog S W) where
  pure a := fun s ws => (some a, s, ws)
  bind m f := fun s ws =>
    match m s ws with
    | (some a, s', ws') => f a s' ws'
    | (none, s', ws') => (none, s', ws')

/-- An operation, once for each answer of the world. -/
def operate (f : W → S → A × S) : Prog S W A := fun s ws =>
  match ws with
  | [] => (none, s, [])
  | w :: ws => (some (f w s).1, (f w s).2, ws)

@[simp] theorem pure_apply (a : A) (s : S) (ws : List W) :
    (pure a : Prog S W A) s ws = (some a, s, ws) := rfl

theorem bind_apply (m : Prog S W A) (f : A → Prog S W B) (s : S) (ws : List W) :
    (m >>= f) s ws =
      match m s ws with
      | (some a, s', ws') => f a s' ws'
      | (none, s', ws') => (none, s', ws') := rfl

@[simp] theorem operate_cons (f : W → S → A × S) (s : S) (w : W) (ws : List W) :
    operate f s (w :: ws) = (some (f w s).1, (f w s).2, ws) := rfl

/-- An operation that has its answer runs, and the rest of the program after it. -/
@[simp] theorem operate_bind_cons (f : W → S → A × S) (g : A → Prog S W B) (s : S) (w : W)
    (ws : List W) : (operate f >>= g) s (w :: ws) = g (f w s).1 (f w s).2 ws := rfl

/-- From `P`, the program returns with its result and state in `Q`, or is cut in `C`. -/
def Triple (P : S → Prop) (m : Prog S W A) (Q : A → S → Prop) (C : S → Prop) : Prop :=
  ∀ s ws, P s →
    match m s ws with
    | (some a, s', _) => Q a s'
    | (none, s', _) => C s'

namespace Triple

variable {P P' : S → Prop} {Q Q' : A → S → Prop} {C : S → Prop} {m n : Prog S W A}

/-- What a triple says of a program that returned. -/
theorem returned (triple : Triple P m Q C) {s : S} {ws : List W} {a : A} (pre : P s)
    (returned : (m s ws).1 = some a) : Q a (m s ws).2.1 := by
  have post := triple s ws pre
  revert post returned
  rcases m s ws with ⟨_ | b, s', ws'⟩ <;> intro eq post
  · exact absurd eq (by simp)
  · rwa [Option.some_inj.mp eq] at post

/-- What holds wherever the program ends, cut or not. -/
theorem ended (triple : Triple P m Q C) {s : S} (ws : List W) (pre : P s)
    (post : ∀ a s', Q a s' → C s') : C (m s ws).2.1 := by
  have ends := triple s ws pre
  revert ends
  rcases m s ws with ⟨_ | a, s', ws'⟩ <;> intro ends
  · exact ends
  · exact post a s' ends

theorem pure {a : A} (post : ∀ s, P s → Q a s) : Triple P (Pure.pure a : Prog S W A) Q C :=
  fun s _ pre => post s pre

/-- The sequence rule. -/
theorem bind {R : B → S → Prop} {m : Prog S W B} {f : B → Prog S W A} (first : Triple P m R C)
    (next : ∀ b, Triple (R b) (f b) Q C) : Triple P (m >>= f) Q C := by
  intro s ws pre
  have middle := first s ws pre
  rw [bind_apply]
  revert middle
  rcases m s ws with ⟨_ | b, s', ws'⟩ <;> intro middle
  · exact middle
  · exact next b s' ws' middle

/-- The rule of one operation: power may be lost before it, and each answer has its effect. -/
theorem operate {f : W → S → A × S} (cut : ∀ s, P s → C s)
    (post : ∀ w s, P s → Q (f w s).1 (f w s).2) : Triple P (Crash.operate f) Q C := by
  intro s ws pre
  cases ws with
  | nil => exact cut s pre
  | cons w ws => exact post w s pre

theorem weaken (triple : Triple P m Q C) (pre : ∀ s, P' s → P s)
    (post : ∀ a s, Q a s → Q' a s) : Triple P' m Q' C := by
  intro s ws hs
  have ends := triple s ws (pre s hs)
  revert ends
  rcases m s ws with ⟨_ | a, s', ws'⟩ <;> intro ends
  · exact ends
  · exact post a s' ends

theorem ite {c : Prop} [Decidable c] (yes : c → Triple P m Q C) (no : ¬ c → Triple P n Q C) :
    Triple P (if c then m else n) Q C := by
  by_cases h : c
  · rw [if_pos h]; exact yes h
  · rw [if_neg h]; exact no h

end Triple

end Crash
