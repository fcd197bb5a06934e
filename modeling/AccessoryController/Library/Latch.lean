import Mathlib.Data.List.Induction

/-!
# Latches

A latch is set by some events and held by others. While it is off only `set` matters, and while it
is on only `hold`. Its output depends on its own past, but where every event that sets it also
holds it, it is on exactly if it was set at some event and held ever since.

## Main definitions

* `Latch.on set hold events`: the latch after a list of events
* `Latch.SetAndHeld set hold events`: an event set the latch, and every event since held it

## Main results

* `Latch.on_iff`: the two agree
-/

namespace Latch

variable {E : Type*}

/-- The latch after the events of a list, in order; it starts off. -/
def on (set hold : E → Bool) (events : List E) : Bool :=
  events.foldl (fun state event => if state then hold event else set event) false

/-- Some event set the latch, and every event after it held it. -/
def SetAndHeld (set hold : E → Bool) (events : List E) : Prop :=
  ∃ before event after, events = before ++ event :: after ∧ set event = true ∧
    ∀ later ∈ after, hold later = true

variable {set hold : E → Bool}

theorem on_snoc (events : List E) (event : E) :
    on set hold (events ++ [event]) =
      if on set hold events then hold event else set event := by
  rw [on, List.foldl_append]
  rfl

/-- One more event sets the latch, or holds a latch that was set and held. -/
theorem setAndHeld_snoc (events : List E) (event : E) :
    SetAndHeld set hold (events ++ [event]) ↔
      set event = true ∨ SetAndHeld set hold events ∧ hold event = true := by
  constructor
  · rintro ⟨before, setter, after, heq, hset, held⟩
    rcases List.eq_nil_or_concat after with rfl | ⟨rest, last, rfl⟩
    · obtain ⟨-, hsame⟩ := List.append_inj' heq rfl
      rw [List.singleton_inj.mp hsame]
      exact Or.inl hset
    · rw [List.concat_eq_append, ← List.cons_append, ← List.append_assoc] at heq
      obtain ⟨rfl, hlast⟩ := List.append_inj' heq rfl
      obtain rfl := List.singleton_inj.mp hlast
      refine Or.inr ⟨⟨before, setter, rest, rfl, hset, fun later hmem => ?_⟩, ?_⟩
      · exact held later (by simp [hmem])
      · exact held event (by simp)
  · rintro (hset | ⟨⟨before, setter, after, rfl, hset, held⟩, hhold⟩)
    · exact ⟨events, event, [], rfl, hset, fun _ h => absurd h List.not_mem_nil⟩
    · refine ⟨before, setter, after ++ [event], by simp, hset, fun later hmem => ?_⟩
      rcases List.mem_append.mp hmem with hmem | hmem
      · exact held later hmem
      · rw [List.mem_singleton.mp hmem]
        exact hhold

/-- **A latch** whose setting events also hold it is on exactly if it was set and held since. -/
theorem on_iff (covers : ∀ event, set event = true → hold event = true) (events : List E) :
    on set hold events = true ↔ SetAndHeld set hold events := by
  induction events using List.reverseRecOn with
  | nil =>
    constructor
    · intro h
      cases h
    · rintro ⟨before, setter, after, heq, -⟩
      simp at heq
  | append_singleton events event ih =>
    rw [on_snoc, setAndHeld_snoc, ← ih]
    cases on set hold events with
    | false => simp
    | true =>
      -- an event that sets the latch again also holds it
      simp only [if_true, true_and]
      exact ⟨Or.inr, fun h => h.elim (covers event) id⟩

end Latch
