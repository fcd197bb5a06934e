import Mathlib.Data.List.Nodup
import Mathlib.Order.WithBot

/-!
# Registers that keep the latest

A register remembers the latest stamp that it took and what came with it. It takes an offer only
when the offer is stamped after its mark, so what it holds does not depend on the order in which
offers with distinct stamps arrive.

## Main definitions

* `LatestWins.Register`: a mark and what is held
* `LatestWins.Register.offer`: an offer, taken or refused

## Main results

* `LatestWins.Register.offer_comm`: two offers with distinct stamps commute
* `LatestWins.Register.foldl_offer_perm`: so do any number of them
-/

namespace LatestWins

/-- The latest stamp taken, and what came with it. -/
@[ext] structure Register (T A : Type*) where
  mark : WithBot T
  held : A

namespace Register

variable {T A : Type*} [LinearOrder T]

/-- An offer stamped at or before the mark is refused. -/
def offer (r : Register T A) (o : T × A) : Register T A :=
  if (o.1 : WithBot T) ≤ r.mark then r else ⟨o.1, o.2⟩

theorem offer_of_le {r : Register T A} {o : T × A} (late : (o.1 : WithBot T) ≤ r.mark) :
    r.offer o = r := if_pos late

theorem offer_of_lt {r : Register T A} {o : T × A} (new : r.mark < o.1) :
    r.offer o = ⟨o.1, o.2⟩ := if_neg (not_le.mpr new)

/-- The mark never falls behind an offer. -/
theorem mark_offer (r : Register T A) (o : T × A) :
    (r.offer o).mark = max r.mark o.1 := by
  rcases le_or_gt (o.1 : WithBot T) r.mark with late | new
  · rw [offer_of_le late, max_eq_left late]
  · rw [offer_of_lt new, max_eq_right new.le]

/-- Of two offers the later one is held, whichever comes first. -/
theorem offer_offer_of_lt (r : Register T A) {o p : T × A} (lt : o.1 < p.1) :
    (r.offer o).offer p = r.offer p ∧ (r.offer p).offer o = r.offer p := by
  have lt' : (o.1 : WithBot T) < p.1 := WithBot.coe_lt_coe.mpr lt
  constructor
  · rcases le_or_gt (p.1 : WithBot T) r.mark with late | new
    · rw [offer_of_le (lt'.le.trans late)]
    · rw [offer_of_lt new, offer_of_lt]
      rw [mark_offer]
      exact max_lt new lt'
  · refine offer_of_le ?_
    rw [mark_offer]
    exact lt'.le.trans (le_max_right _ _)

theorem offer_comm (r : Register T A) {o p : T × A} (distinct : o.1 ≠ p.1) :
    (r.offer o).offer p = (r.offer p).offer o := by
  rcases lt_or_gt_of_ne distinct with lt | gt
  · rw [(r.offer_offer_of_lt lt).1, (r.offer_offer_of_lt lt).2]
  · rw [(r.offer_offer_of_lt gt).1, (r.offer_offer_of_lt gt).2]

/-- **Order independence**: offers with distinct stamps leave the same register in every order. -/
theorem foldl_offer_perm (r : Register T A) {l l' : List (T × A)} (perm : l.Perm l')
    (distinct : (l.map Prod.fst).Nodup) : l.foldl offer r = l'.foldl offer r := by
  refine perm.foldl_eq' ?_ r
  intro o ho p hp r
  by_cases same : o = p
  · rw [same]
  · refine r.offer_comm fun stamps => same ?_
    exact List.inj_on_of_nodup_map distinct ho hp stamps

end Register

end LatestWins
