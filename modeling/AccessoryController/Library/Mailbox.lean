import Mathlib.Data.List.Basic

/-!
# Latest-state mailboxes

A mailbox holds at most one pending notice. A post merges into the pending notice, or becomes the
pending notice when there is none; a take hands the pending notice over. What the holder of the
mailbox has seen or is about to see is its history: the notices taken so far and then the pending
one.

## Main definitions

* `Mailbox.history`: the notices taken so far, then the pending one
* `Mailbox.Latest f m v`: the last notice of the history carries the value `v`
* `Mailbox.SeededOnce P m`: the first notice of the history, and no other, satisfies `P`

## Main results

* `Mailbox.Latest.post`, `Mailbox.SeededOnce.post`: what a post does to the history
-/

structure Mailbox (N : Type*) where
  taken : List N
  pending : Option N

namespace Mailbox

variable {N V : Type*}

/-- The notices taken so far, then the pending one. -/
def history (m : Mailbox N) : List N := m.taken ++ m.pending.toList

/-- A mailbox that holds one notice and has handed over none. -/
def seed (n : N) : Mailbox N := ⟨[], some n⟩

/-- Merges into the pending notice; without one, `fresh` becomes pending. -/
def post (merge : N → N) (fresh : N) (m : Mailbox N) : Mailbox N :=
  { m with pending := some (m.pending.elim fresh merge) }

/-- Hands the pending notice over. -/
def take (m : Mailbox N) : Mailbox N := ⟨m.taken ++ m.pending.toList, none⟩

/-- The last notice of the history carries `v`. -/
def Latest (f : N → V) (m : Mailbox N) (v : V) : Prop := m.history.getLast?.map f = some v

/-- The first notice of the history, and no other, satisfies `P`. -/
def SeededOnce (P : N → Prop) (m : Mailbox N) : Prop :=
  ∃ first rest, m.history = first :: rest ∧ P first ∧ ∀ n ∈ rest, ¬ P n

@[simp] theorem history_seed (n : N) : (seed n).history = [n] := rfl

theorem history_post (merge : N → N) (fresh : N) (m : Mailbox N) :
    (m.post merge fresh).history = m.taken ++ [m.pending.elim fresh merge] := rfl

theorem latest_seed (f : N → V) (n : N) : Latest f (seed n) (f n) := rfl

variable {m : Mailbox N}

/-- A post whose notices all carry `v` leaves `v` as the latest value. -/
theorem Latest.post {f : N → V} {merge : N → N} {fresh : N} {v : V} (hfresh : f fresh = v)
    (hmerge : ∀ p, f (merge p) = v) : Latest f (m.post merge fresh) v := by
  rw [Latest, history_post, List.getLast?_concat, Option.map_some]
  cases m.pending with
  | none => exact congrArg some hfresh
  | some p => exact congrArg some (hmerge p)

theorem seededOnce_seed {P : N → Prop} {n : N} (h : P n) : SeededOnce P (seed n) :=
  ⟨n, [], rfl, h, fun _ hn => absurd hn List.not_mem_nil⟩

/-- A post that seeds nothing and keeps the seed of what it merges into keeps a history seeded
once. -/
theorem SeededOnce.post {P : N → Prop} {merge : N → N} {fresh : N} (h : SeededOnce P m)
    (hfresh : ¬ P fresh) (hmerge : ∀ p, P (merge p) ↔ P p) : SeededOnce P (m.post merge fresh) := by
  obtain ⟨first, rest, hist, hfirst, hrest⟩ := h
  rw [history] at hist
  rw [SeededOnce, history_post]
  cases hp : m.pending with
  | none =>
    -- nothing was pending: the fresh notice is appended to a history that is seeded once
    simp only [hp, Option.toList_none, List.append_nil] at hist
    refine ⟨first, rest ++ [fresh], by simp [hist], hfirst, fun n hn => ?_⟩
    rcases List.mem_append.mp hn with hn | hn
    · exact hrest n hn
    · rwa [List.mem_singleton.mp hn]
  | some p =>
    simp only [hp, Option.toList_some] at hist
    cases ht : m.taken with
    | nil =>
      obtain ⟨rfl, rfl⟩ : p = first ∧ [] = rest := by simpa [ht] using hist
      exact ⟨merge p, [], rfl, (hmerge p).mpr hfirst, fun _ hn => absurd hn List.not_mem_nil⟩
    | cons t ts =>
      obtain ⟨rfl, rfl⟩ : t = first ∧ ts ++ [p] = rest := by simpa [ht] using hist
      refine ⟨t, ts ++ [merge p], rfl, hfirst, fun n hn => ?_⟩
      rcases List.mem_append.mp hn with hn | hn
      · exact hrest n (List.mem_append_left _ hn)
      · rw [List.mem_singleton.mp hn, hmerge]
        exact hrest p (List.mem_append_right _ (List.mem_singleton.mpr rfl))

/-- With nothing pending, the last notice taken carries the latest value. -/
theorem Latest.taken {f : N → V} {v : V} (h : Latest f m v) (hp : m.pending = none) :
    ∃ n, m.taken.getLast? = some n ∧ f n = v := by
  simpa [Latest, history, hp] using h

/-- A pending notice carries the latest value. -/
theorem Latest.pending {f : N → V} {v : V} (h : Latest f m v) {n : N} (hp : m.pending = some n) :
    f n = v := by
  simpa [Latest, history, hp] using h

end Mailbox
