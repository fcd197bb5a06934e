import Mathlib.Data.List.Count

/-!
# Ledgers of grants and releases

A client holds items that a server grants, each under a key. A release gives an item back by its
key; a server may also refuse to take one back, and the item then stays held. The ledger is the
history of grants, releases and refusals, and what is held follows from it.

## Main definitions

* `Ledger.held key start history`: the items held after a history
* `Ledger.Lawful key start history`: every release and every refusal names an item held then

## Main results

* `Ledger.count_balance`: grants are releases and what is still held, for every key
* `Ledger.Lawful.append`, `Ledger.held_append`: histories are composed
-/

namespace Ledger

variable {R K : Type*}

/-- What happens between a client and a server. -/
inductive Entry (R K : Type*)
  | grant (item : R)
  | release (key : K)
  | refusal (key : K)

/-- The key that an entry gives back. -/
def Entry.released? : Entry R K → Option K
  | .release k => some k
  | _ => none

/-- The item that an entry grants. -/
def Entry.granted? : Entry R K → Option R
  | .grant item => some item
  | _ => none

variable [DecidableEq K] (key : R → K)

/-- The items held after a history, newest first: a release gives back the newest item under its
key. -/
def held : List R → List (Entry R K) → List R
  | items, [] => items
  | items, .grant item :: rest => held (item :: items) rest
  | items, .release k :: rest => held (items.eraseP fun item => key item = k) rest
  | items, .refusal _ :: rest => held items rest

/-- Every release and every refusal names an item that is held at that time. -/
def Lawful : List R → List (Entry R K) → Prop
  | _, [] => True
  | items, .grant item :: rest => Lawful (item :: items) rest
  | items, .release k :: rest =>
    k ∈ items.map key ∧ Lawful (items.eraseP fun item => key item = k) rest
  | items, .refusal k :: rest => k ∈ items.map key ∧ Lawful items rest

variable {key}

@[simp] theorem held_nil (items : List R) : held key items [] = items := rfl

@[simp] theorem lawful_nil (items : List R) : Lawful key items [] := trivial

/-- Giving back the newest item leaves the older ones. -/
theorem held_release_newest (item : R) (items : List R) (rest : List (Entry R K)) :
    held key (item :: items) (.release (key item) :: rest) = held key items rest := by
  simp [held]

theorem held_append (items : List R) (first second : List (Entry R K)) :
    held key items (first ++ second) = held key (held key items first) second := by
  induction first generalizing items with
  | nil => rfl
  | cons entry first ih => cases entry <;> exact ih _

theorem Lawful.append {items : List R} {first second : List (Entry R K)}
    (lawful : Lawful key items first) (next : Lawful key (held key items first) second) :
    Lawful key items (first ++ second) := by
  induction first generalizing items with
  | nil => exact next
  | cons entry first ih =>
    cases entry with
    | grant item => exact @ih (item :: items) lawful next
    | release k => exact ⟨lawful.1, ih lawful.2 next⟩
    | refusal k => exact ⟨lawful.1, ih lawful.2 next⟩

/-- **Balance**: in a lawful history the items under a key that were held before or granted are
those given back and those still held. -/
theorem count_balance {items : List R} {history : List (Entry R K)}
    (lawful : Lawful key items history) (k : K) :
    (items.map key).count k + ((history.filterMap Entry.granted?).map key).count k =
      (history.filterMap Entry.released?).count k + ((held key items history).map key).count k := by
  induction history generalizing items with
  | nil => simp
  | cons entry history ih =>
    cases entry with
    | grant item =>
      have balance := @ih (item :: items) lawful
      simp only [List.map_cons, List.count_cons] at balance
      simp only [Entry.granted?, Entry.released?, List.filterMap_cons, List.map_cons,
        List.count_cons, held]
      omega
    | release k' =>
      have balance := ih lawful.2
      obtain ⟨item, mem, rfl⟩ := List.mem_map.mp lawful.1
      -- The item given back is the newest under its key, and leaves the others in place.
      obtain ⟨given, older, newer, -, same, split, rest⟩ :=
        List.exists_of_eraseP (p := fun other => decide (key other = key item)) mem (by simp)
      rw [rest] at balance
      simp only [decide_eq_true_eq] at same
      rw [held, rest, split]
      simp only [Entry.granted?, Entry.released?, List.filterMap_cons, List.map_append,
        List.map_cons, List.count_append, List.count_cons, same] at balance ⊢
      omega
    | refusal k' => exact ih lawful.2

end Ledger
