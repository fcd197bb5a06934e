import AccessoryController.Library.History

/-!
# Pacing by the last time

A process remembers the last time at which it did something, forgets it on a reset, and makes no
attempt before an interval has passed since then. On a clock that does not run backwards, its
attempts between two resets are an interval apart.

## Main definitions

* `Pacing.Agrees`: the remembered time is that of an event, and no attempt is later
* `Pacing.Effect`: what an event may do to the remembered time

## Main results

* `Agrees.snoc`: one event keeps the agreement
* `Agrees.spaced`: attempts are an interval apart
-/

namespace Pacing

open History

variable {E : Type*} (time : E → Option ℤ) (attempts resets : E → Prop) [DecidablePred resets]

/-- The remembered time is the time of some event, and is no earlier than any attempt since the
last reset. -/
structure Agrees (last : Option ℤ) (history : List E) : Prop where
  sampled : ∀ t, last = some t → t ∈ history.filterMap time
  paced : ∀ e ∈ sinceLast resets history, attempts e → ∀ t, time e = some t →
    ∃ l, last = some l ∧ t ≤ l

/-- What an event does to the remembered time: a reset forgets it, an attempt always sets it. -/
inductive Effect (e : E) (last : Option ℤ) : Option ℤ → Prop
  | reset (resets : resets e) : Effect e last none
  | idle (going : ¬resets e) (still : ¬attempts e) : Effect e last last
  | sample (going : ¬resets e) {now : ℤ} (at_now : time e = some now) : Effect e last (some now)

variable {time attempts resets} {last last' : Option ℤ} {history : List E} {e : E}

theorem Agrees.start : Agrees time attempts resets none [] where
  sampled _ none_there := nomatch none_there
  paced _ mem := absurd mem List.not_mem_nil

/-- **One event keeps the agreement.** -/
theorem Agrees.snoc (agrees : Agrees time attempts resets last history)
    (effect : Effect time attempts resets e last last')
    (monotone : ∀ now, time e = some now → ∀ t ∈ history.filterMap time, t ≤ now) :
    Agrees time attempts resets last' (history ++ [e]) := by
  have earlier : ∀ t ∈ history.filterMap time, t ∈ (history ++ [e]).filterMap time := by
    intro t ht
    rw [List.filterMap_append]
    exact List.mem_append_left _ ht
  cases effect with
  | reset cut =>
    refine ⟨nofun, fun x mem => ?_⟩
    rw [sinceLast_snoc, if_pos cut] at mem
    exact absurd mem List.not_mem_nil
  | idle going still =>
    refine ⟨fun t ht => earlier t (agrees.sampled t ht), fun x mem attempt => ?_⟩
    rw [sinceLast_snoc, if_neg going] at mem
    rcases List.mem_append.mp mem with mem | mem
    · exact agrees.paced x mem attempt
    · rw [List.mem_singleton.mp mem] at attempt
      exact absurd attempt still
  | @sample going now at_now =>
    have here : now ∈ (history ++ [e]).filterMap time := by
      rw [List.filterMap_append]
      exact List.mem_append_right _ (List.mem_filterMap.mpr ⟨e, List.mem_singleton_self e, at_now⟩)
    refine ⟨fun t ht => ?_, fun x mem attempt t ht => ⟨now, rfl, ?_⟩⟩
    · rw [← Option.some.inj ht]
      exact here
    · rw [sinceLast_snoc, if_neg going] at mem
      rcases List.mem_append.mp mem with mem | mem
      · -- the last time was no earlier than the attempt, and the clock went on since
        obtain ⟨l, hl, le⟩ := agrees.paced x mem attempt t ht
        exact Int.le_trans le (monotone now at_now l (agrees.sampled l hl))
      · rw [List.mem_singleton.mp mem, at_now] at ht
        exact Int.le_of_eq (Option.some.inj ht).symm

/-- **Attempts are an interval apart**: an event that waited for the interval since the remembered
time comes that long after every attempt since the last reset. -/
theorem Agrees.spaced (agrees : Agrees time attempts resets last history) {interval now : ℤ}
    (waited : ∀ l, last = some l → now < l ∨ interval ≤ now - l)
    (monotone : ∀ t ∈ history.filterMap time, t ≤ now) :
    ∀ x ∈ sinceLast resets history, attempts x → ∀ t, time x = some t → t + interval ≤ now := by
  intro x mem attempt t ht
  obtain ⟨l, hl, le⟩ := agrees.paced x mem attempt t ht
  have clock := monotone l (agrees.sampled l hl)
  rcases waited l hl with ahead | waited <;> omega

end Pacing
