import AccessoryController.Library.While
import Mathlib.Algebra.Order.BigOperators.Group.List
import Mathlib.Data.List.Nodup
import Mathlib.Data.List.TakeWhile
import Mathlib.Tactic.Ring

/-!
# Timetables

A timetable merges a stream of arrivals, given by their times, with periodic sources, up to a
horizon. Each round takes the earliest time that is due. It serves every arrival of that time,
then marks the end of the stream once the arrivals are exhausted, then serves the sources that
are due, in a fixed order.

## Main definitions

* `Timetable`: the sources with their periods, and the order in which kinds are served
* `Timetable.Started`: nothing was served yet
* `Timetable.round`: the work of one due time
* `Timetable.Inv`: what a timetable has done and has still to do

## Main results

* `Timetable.Inv.round`: what a round keeps
* `Timetable.runs`: a loop that is seen as a timetable comes to its end, and has then served every
  arrival once and in order, marked the end once and served each source at every one of its times
  up to the horizon, in order
-/

/-- Periodic sources beside a stream of arrivals, with the ranks of what is served at one time. -/
structure Timetable (K : Type*) where
  arrival : K
  ended : K
  /-- The periodic sources. -/
  order : List K
  rank : K → ℕ
  /-- Arrivals come first at a time, then the end, then the sources in their order. -/
  ranked : (arrival :: ended :: order).Pairwise (rank · < rank ·)
  period : K → ℕ
  period_pos : ∀ k ∈ order, 0 < period k
  /-- A source starts at zero, or after its first period. -/
  late : K → Bool
  horizon : ℕ

namespace Timetable

variable {K : Type*}

/-- What is still to come, and what was served, with its time. -/
structure State (K : Type*) where
  arrivals : List ℕ
  finished : Bool
  due : K → Option ℕ
  log : List (ℕ × K)

/-- The times at which a kind was served. -/
def timesOf [DecidableEq K] (k : K) (log : List (ℕ × K)) : List ℕ :=
  (log.filter fun e => e.2 = k).map Prod.fst

@[simp] theorem timesOf_nil [DecidableEq K] (k : K) : timesOf k [] = [] := rfl

@[simp] theorem timesOf_append [DecidableEq K] (k : K) (l m : List (ℕ × K)) :
    timesOf k (l ++ m) = timesOf k l ++ timesOf k m := by
  simp only [timesOf, List.filter_append, List.map_append]

/-- Of entries at one time, those of a kind are as many as the kind occurs. -/
theorem timesOf_map [DecidableEq K] (k : K) (t : ℕ) (kinds : List K) :
    timesOf k (kinds.map (t, ·)) = List.replicate (kinds.count k) t := by
  induction kinds with
  | nil => rfl
  | cons kind kinds ih =>
    rw [List.map_cons, List.count_cons, timesOf, List.filter_cons]
    by_cases same : kind = k
    · simpa [same, List.replicate_succ, timesOf] using ih
    · simpa [same, timesOf] using ih

section

variable (T : Timetable K) (s : State K) (t : ℕ)

/-- One entry of the log is served no later than another. -/
def Before (a b : ℕ × K) : Prop := a.1 < b.1 ∨ a.1 = b.1 ∧ T.rank a.2 ≤ T.rank b.2

/-- The time of a source after `t`, unless it passes the horizon. -/
def next (k : K) : Option ℕ := if t + T.period k ≤ T.horizon then some (t + T.period k) else none

/-- The time of a source after it was served `n` times. -/
def deadline (k : K) (n : ℕ) : Option ℕ :=
  if (n + (T.late k).toNat) * T.period k ≤ T.horizon then
    some ((n + (T.late k).toNat) * T.period k)
  else none

/-- How often a source is served up to the horizon. -/
def quota (k : K) : ℕ := T.horizon / T.period k + 1 - (T.late k).toNat

/-- The times of a source, in order. -/
def ticks (k : K) (n : ℕ) : List ℕ :=
  (List.range n).map fun i => (i + (T.late k).toNat) * T.period k

/-- Nothing was served yet. -/
structure Started (arrivals : List ℕ) (s : State K) : Prop where
  arrivals : s.arrivals = arrivals
  going : s.finished = false
  due : ∀ k ∈ T.order, s.due k = T.deadline k 0
  log : s.log = []

/-- Every time that is still to come. -/
def upcoming : List ℕ := s.arrivals ++ T.order.filterMap s.due

end

section

variable [DecidableEq K] (T : Timetable K) (s : State K) (t : ℕ)

/-- The arrivals of the time `t`. -/
def arrive : State K :=
  { s with
    arrivals := s.arrivals.dropWhile (· = t)
    log := s.log ++ (s.arrivals.takeWhile (· = t)).map fun _ => (t, T.arrival) }

/-- The end of the stream is marked once the arrivals are exhausted. -/
def finish : State K :=
  if s.finished = false ∧ s.arrivals = [] then
    { s with finished := true, log := s.log ++ [(t, T.ended)] }
  else s

/-- A source is served when it is due. -/
def serve (k : K) : State K :=
  if s.due k = some t then
    { s with due := Function.update s.due k (T.next t k), log := s.log ++ [(t, k)] }
  else s

/-- The work of the time `t`. -/
def round : State K := T.order.foldl (fun s k => T.serve s t k) (T.finish (T.arrive s t) t)

/-- The rounds go on while something is still to come, and take the earliest time. -/
def step : Option (State K) := (T.upcoming s).min?.map fun t => T.round s t

end

/-! ### The order of service -/

section Ranks

variable (T : Timetable K)

theorem order_nodup : T.order.Nodup :=
  List.Pairwise.imp (fun {_ _} less same => (same ▸ less).false)
    (List.pairwise_cons.mp (List.pairwise_cons.mp T.ranked).2).2

theorem arrival_ne_ended : T.arrival ≠ T.ended := by
  intro same
  have less := (List.pairwise_cons.mp T.ranked).1 T.ended (List.mem_cons_self ..)
  exact (same ▸ less).false

variable {T} {k : K}

theorem ne_arrival (mem : k ∈ T.order) : k ≠ T.arrival := by
  rintro rfl
  exact ((List.pairwise_cons.mp T.ranked).1 _ (List.mem_cons_of_mem _ mem)).false

theorem ne_ended (mem : k ∈ T.order) : k ≠ T.ended := by
  rintro rfl
  exact ((List.pairwise_cons.mp (List.pairwise_cons.mp T.ranked).2).1 _ mem).false

end Ranks

/-! ### The sources -/

/-- How often a source with the next time `due` is still served. -/
def remaining (T : Timetable K) (k : K) : Option ℕ → ℕ
  | none => 0
  | some u => (T.horizon - u) / T.period k + 1

/-- How much work is left. -/
def workLeft (T : Timetable K) (s : State K) : ℕ :=
  s.arrivals.length + (T.order.map fun k => T.remaining k (s.due k)).sum

variable {u n : ℕ}

section Sources

variable {T : Timetable K} {s : State K} {k : K}

theorem mem_upcoming : u ∈ T.upcoming s ↔ u ∈ s.arrivals ∨ ∃ k ∈ T.order, s.due k = some u := by
  simp only [upcoming, List.mem_append, List.mem_filterMap]

theorem deadline_eq_some : T.deadline k n = some u ↔
    (n + (T.late k).toNat) * T.period k = u ∧ u ≤ T.horizon := by
  unfold deadline
  split
  · next fits => simp only [Option.some.injEq]; exact ⟨fun h => ⟨h, h ▸ fits⟩, fun h => h.1⟩
  · next past =>
    simp only [reduceCtorEq, false_iff, not_and]
    rintro rfl
    exact past

/-- A source that passes the horizon was served as often as it is due. -/
theorem quota_le_of_deadline (mem : k ∈ T.order) (none : T.deadline k n = none) :
    T.quota k ≤ n := by
  have past : T.horizon < (n + (T.late k).toNat) * T.period k := by
    by_contra fits
    simp [deadline, Nat.not_lt.mp fits] at none
  have := (Nat.div_lt_iff_lt_mul (T.period_pos k mem)).mpr past
  unfold quota
  omega

/-- A source that is due was served less often than it is due. -/
theorem lt_quota_of_deadline (mem : k ∈ T.order) (due : T.deadline k n = some u) :
    n < T.quota k := by
  obtain ⟨rfl, fits⟩ := deadline_eq_some.mp due
  have := (Nat.le_div_iff_mul_le (T.period_pos k mem)).mpr fits
  unfold quota
  omega

/-- The time after a deadline is the deadline after it. -/
theorem next_deadline (due : T.deadline k n = some u) : T.next u k = T.deadline k (n + 1) := by
  obtain ⟨rfl, -⟩ := deadline_eq_some.mp due
  have sum : (n + (T.late k).toNat) * T.period k + T.period k =
      (n + 1 + (T.late k).toNat) * T.period k := by ring
  unfold next deadline
  rw [sum]

theorem ticks_succ (due : T.deadline k n = some u) : T.ticks k (n + 1) = T.ticks k n ++ [u] := by
  obtain ⟨rfl, -⟩ := deadline_eq_some.mp due
  simp only [ticks, List.range_succ, List.map_append, List.map_cons, List.map_nil]

theorem remaining_next {t : ℕ} (source : k ∈ T.order) :
    T.remaining k (T.next t k) < T.remaining k (some t) := by
  have positive := T.period_pos k source
  unfold next
  split
  · next fits =>
    have less : T.horizon - (t + T.period k) = T.horizon - t - T.period k := by omega
    have room : T.period k ≤ T.horizon - t := by omega
    have := Nat.div_eq_sub_div positive room
    simp only [remaining, less]
    omega
  · simp only [remaining, Nat.succ_pos]

/-- The work of a whole timetable. -/
theorem Started.workLeft {times : List ℕ} (started : T.Started times s) :
    T.workLeft s = times.length + (T.order.map T.quota).sum := by
  unfold Timetable.workLeft
  rw [started.arrivals]
  congr 2
  refine List.map_congr_left fun k source => ?_
  have positive := T.period_pos k source
  rw [started.due k source]
  simp only [deadline, quota, Nat.zero_add]
  rcases late : T.late k
  · simp [remaining]
  · simp only [Bool.toNat_true, Nat.one_mul, Nat.add_sub_cancel]
    split
    · next fits => exact (Nat.div_eq_sub_div positive fits).symm
    · next past => exact (Nat.div_eq_of_lt (Nat.not_le.mp past)).symm

end Sources

/-! ### What a round does -/

section Round

variable (T : Timetable K) (s : State K) (t : ℕ)

/-- What is served at the time `t`, in order. -/
def kinds : List K :=
  ((s.arrivals.takeWhile (· = t)).map fun _ => T.arrival) ++
    ((if s.finished = false ∧ s.arrivals.dropWhile (· = t) = [] then [T.ended] else []) ++
      T.order.filter (s.due · = some t))

variable {T s t}

/-- After the arrivals of a time come the end and the sources that are due. -/
theorem later_sublist :
    ((if s.finished = false ∧ s.arrivals.dropWhile (· = t) = [] then [T.ended] else []) ++
      T.order.filter (s.due · = some t)).Sublist (T.ended :: T.order) := by
  refine (List.Sublist.append ?_ List.filter_sublist : List.Sublist _ ([T.ended] ++ T.order))
  split
  · exact List.Sublist.refl _
  · exact List.nil_sublist _

theorem mem_kinds {k : K} (mem : k ∈ T.kinds s t) : k ∈ T.arrival :: T.ended :: T.order := by
  rcases List.mem_append.mp mem with mem | mem
  · obtain ⟨_, _, rfl⟩ := List.mem_map.mp mem
    exact List.mem_cons_self ..
  · exact List.mem_cons_of_mem _ (later_sublist.subset mem)

/-- What is served at one time comes in the order of the ranks. -/
theorem kinds_sorted : (T.kinds s t).Pairwise (T.rank · ≤ T.rank ·) := by
  obtain ⟨first, rest⟩ := List.pairwise_cons.mp T.ranked
  refine List.pairwise_append.mpr ⟨?_, ?_, ?_⟩
  · exact List.pairwise_map.mpr (List.pairwise_of_forall fun _ _ => le_rfl)
  · exact List.Pairwise.sublist later_sublist (rest.imp le_of_lt)
  · intro a mem b mem'
    obtain ⟨_, _, rfl⟩ := List.mem_map.mp mem
    exact (first b (later_sublist.subset mem')).le

/-- The arrivals of the time `t` are served one by one. -/
theorem arrive_cons {rest : List ℕ} (next : s.arrivals = t :: rest) :
    T.arrive s t = T.arrive { s with arrivals := rest, log := s.log ++ [(t, T.arrival)] } t := by
  simp [arrive, next]

theorem arrive_idle (later : s.arrivals.head? ≠ some t) : T.arrive s t = s := by
  rcases s with ⟨_ | ⟨first, rest⟩, finished, due, log⟩
  · simp [arrive]
  · have other : first ≠ t := fun same => later (same ▸ rfl)
    simp [arrive, other]

variable [DecidableEq K]

theorem foldl_serve {order : List K} (nodup : order.Nodup) (s : State K) (t : ℕ) :
    order.foldl (fun s k => T.serve s t k) s =
      { s with
        due := fun k => if k ∈ order ∧ s.due k = some t then T.next t k else s.due k
        log := s.log ++ (order.filter (s.due · = some t)).map (t, ·) } := by
  induction order generalizing s with
  | nil => simp
  | cons k order ih =>
    obtain ⟨fresh, nodup⟩ := List.nodup_cons.mp nodup
    rw [List.foldl_cons, ih nodup]
    by_cases served : s.due k = some t
    · -- Serving `k` leaves the other sources alone, and `k` does not come again.
      have others : order.filter (Function.update s.due k (T.next t k) · = some t) =
          order.filter (s.due · = some t) := by
        refine List.filter_congr fun j mem => ?_
        rw [Function.update_of_ne (by rintro rfl; exact fresh mem)]
      simp only [serve, served, if_true, others, List.filter_cons, decide_true, List.map_cons,
        List.append_assoc, List.cons_append, List.nil_append, State.mk.injEq, and_true, true_and]
      funext j
      by_cases same : j = k
      · subst same
        simp [fresh, served]
      · simp [same]
    · simp only [serve, served, if_false, List.filter_cons, decide_false, Bool.false_eq_true,
        State.mk.injEq, and_true, true_and]
      funext j
      by_cases same : j = k
      · subst same
        simp [served]
      · simp [same]

/-- **What a round does.** -/
theorem round_eq (T : Timetable K) (s : State K) (t : ℕ) :
    T.round s t =
      { arrivals := s.arrivals.dropWhile (· = t)
        finished := s.finished || decide (s.arrivals.dropWhile (· = t) = [])
        due := fun k => if k ∈ T.order ∧ s.due k = some t then T.next t k else s.due k
        log := s.log ++ (T.kinds s t).map (t, ·) } := by
  rw [round, foldl_serve T.order_nodup]
  rcases s with ⟨arrivals, finished, due, log⟩
  unfold finish arrive kinds
  generalize arrivals.dropWhile (· = t) = rest
  -- The end is marked in this round, or it was marked before, or arrivals remain.
  rcases finished <;> rcases rest with _ | ⟨first, rest⟩ <;> simp

/-- How often a kind is served at one time. -/
theorem count_kinds (k : K) :
    (T.kinds s t).count k =
      (if T.arrival = k then (s.arrivals.takeWhile (· = t)).length else 0) +
      ((if (s.finished = false ∧ s.arrivals.dropWhile (· = t) = []) ∧ T.ended = k then 1 else 0) +
        if k ∈ T.order ∧ s.due k = some t then 1 else 0) := by
  rw [kinds, List.count_append, List.count_append, List.map_const', List.count_replicate]
  congr 1
  · simp only [beq_iff_eq]
  congr 1
  · by_cases last : s.finished = false ∧ s.arrivals.dropWhile (· = t) = []
    · rw [if_pos last, List.count_singleton]
      simp only [last, true_and, beq_iff_eq, and_self]
    · rw [if_neg last, if_neg fun h => last h.1, List.count_nil]
  · by_cases served : k ∈ T.order ∧ s.due k = some t
    · rw [if_pos served, List.count_filter (by simpa using served.2),
        List.count_eq_one_of_mem T.order_nodup served.1]
    · rw [if_neg served]
      exact List.count_eq_zero.mpr fun mem => served (by simpa using List.mem_filter.mp mem)

theorem count_arrival_kinds :
    (T.kinds s t).count T.arrival = (s.arrivals.takeWhile (· = t)).length := by
  have source : T.arrival ∉ T.order := fun mem => ne_arrival mem rfl
  simp [count_kinds, T.arrival_ne_ended.symm, source]

theorem count_ended_kinds :
    (T.kinds s t).count T.ended =
      if s.finished = false ∧ s.arrivals.dropWhile (· = t) = [] then 1 else 0 := by
  have source : T.ended ∉ T.order := fun mem => ne_ended mem rfl
  simp [count_kinds, T.arrival_ne_ended, source]

theorem count_source_kinds {k : K} (mem : k ∈ T.order) :
    (T.kinds s t).count k = if s.due k = some t then 1 else 0 := by
  simp [count_kinds, (ne_arrival mem).symm, (ne_ended mem).symm, mem]

end Round

/-! ### What the rounds keep -/

section Invariant

variable [DecidableEq K] {T : Timetable K} {s : State K} {t : ℕ} {k : K} {times : List ℕ}

/-- The state of a timetable with the arrivals `times`: what was served is what had come. -/
structure Inv (T : Timetable K) (times : List ℕ) (s : State K) : Prop where
  arrived : timesOf T.arrival s.log ++ s.arrivals = times
  finished : s.finished = true → s.arrivals = []
  /-- Until the end is marked there is a round to mark it in. -/
  waiting : s.finished = false → T.upcoming s ≠ []
  marked : (timesOf T.ended s.log).length = s.finished.toNat
  served : ∀ k ∈ T.order, ∃ n ≤ T.quota k,
    timesOf k s.log = T.ticks k n ∧ s.due k = T.deadline k n
  past : ∀ e ∈ s.log, ∀ u ∈ T.upcoming s, e.1 < u
  sorted : s.log.Pairwise T.Before
  within : ∀ e ∈ s.log, e.1 ≤ T.horizon
  known : ∀ e ∈ s.log, e.2 ∈ T.arrival :: T.ended :: T.order

/-- The arrivals that are still to come are the last ones. -/
theorem Inv.arrivals_suffix (inv : T.Inv times s) : s.arrivals <:+ times :=
  ⟨_, inv.arrived⟩

/-- What is still to come lies within the horizon. -/
theorem Inv.upcoming_le (inv : T.Inv times s) (inside : ∀ u ∈ times, u ≤ T.horizon)
    (mem : u ∈ T.upcoming s) : u ≤ T.horizon := by
  rcases mem_upcoming.mp mem with mem | ⟨k, mem, due⟩
  · exact inside u (inv.arrivals_suffix.subset mem)
  · obtain ⟨n, -, -, deadline⟩ := inv.served k mem
    exact (deadline_eq_some.mp (deadline ▸ due)).2

theorem Started.inv (started : T.Started times s) (source : ∃ k ∈ T.order, T.late k = false) :
    T.Inv times s where
  arrived := by rw [started.log, started.arrivals]; rfl
  finished := fun finished => by simp [started.going] at finished
  waiting := by
    intro _ empty
    obtain ⟨k, mem, early⟩ := source
    have due : T.deadline k 0 = some 0 := deadline_eq_some.mpr ⟨by simp [early], Nat.zero_le _⟩
    have mem : 0 ∈ T.upcoming s := mem_upcoming.mpr (.inr ⟨k, mem, (started.due k mem).trans due⟩)
    rw [empty] at mem
    exact List.not_mem_nil mem
  marked := by rw [started.log, started.going]; rfl
  served := fun k mem => ⟨0, Nat.zero_le _, by rw [started.log]; rfl, started.due k mem⟩
  past := fun e mem => by simp [started.log] at mem
  sorted := started.log ▸ List.Pairwise.nil
  within := fun e mem => by simp [started.log] at mem
  known := fun e mem => by simp [started.log] at mem

/-- The arrivals of the time `t` are all at `t`. -/
theorem takeWhile_eq_replicate (l : List ℕ) :
    List.replicate (l.takeWhile (· = t)).length t = l.takeWhile (· = t) :=
  (List.eq_replicate_of_mem fun _ mem => by simpa using List.mem_takeWhile_imp mem).symm

/-- The arrivals after those of the earliest time are later. -/
theorem lt_of_mem_dropWhile {l : List ℕ} (sorted : l.Pairwise (· ≤ ·)) (least : ∀ u ∈ l, t ≤ u)
    (mem : u ∈ l.dropWhile (· = t)) : t < u := by
  induction l with
  | nil => simp at mem
  | cons first rest ih =>
    obtain ⟨first_le, sorted⟩ := List.pairwise_cons.mp sorted
    by_cases now : first = t
    · rw [List.dropWhile_cons_of_pos (by simpa using now)] at mem
      exact ih sorted (fun u mem => least u (List.mem_cons_of_mem _ mem)) mem
    · rw [List.dropWhile_cons_of_neg (by simpa using now)] at mem
      have later : t < first := lt_of_le_of_ne (least first (List.mem_cons_self ..)) (Ne.symm now)
      rcases List.mem_cons.mp mem with rfl | mem
      · exact later
      · exact later.trans_le (first_le u mem)

section Round

variable (inv : T.Inv times s) (ascending : times.Pairwise (· ≤ ·))
  (least : ∀ u ∈ T.upcoming s, t ≤ u)

include inv ascending least

/-- After a round everything that is still to come is later. -/
theorem lt_of_mem_round (mem : u ∈ T.upcoming (T.round s t)) : t < u := by
  rw [round_eq] at mem
  rcases mem_upcoming.mp mem with mem | ⟨k, source, due⟩
  · refine lt_of_mem_dropWhile ?_ (fun u mem => ?_) mem
    · exact ascending.sublist inv.arrivals_suffix.sublist
    · exact least u (mem_upcoming.mpr (.inl mem))
  · dsimp only at due
    split at due
    · -- The source was served: its next time is a period later.
      have positive := T.period_pos k source
      unfold next at due
      split at due
      · rw [Option.some.injEq] at due
        omega
      · simp at due
    · next passed =>
      have no_earlier := least u (mem_upcoming.mpr (.inr ⟨k, source, due⟩))
      refine lt_of_le_of_ne no_earlier ?_
      rintro rfl
      exact passed ⟨source, due⟩

/-- **The step lemma**: a round at the earliest time keeps the invariant. -/
theorem Inv.round (inside : ∀ u ∈ times, u ≤ T.horizon) (mem : t ∈ T.upcoming s) :
    T.Inv times (T.round s t) := by
  have before : ∀ e ∈ s.log, e.1 < t := fun e logged => inv.past e logged t mem
  have later := fun u => lt_of_mem_round inv ascending least (u := u)
  have log : (T.round s t).log = s.log ++ (T.kinds s t).map (t, ·) := by rw [round_eq]
  have logged : ∀ e ∈ (T.round s t).log, e ∈ s.log ∨ e.1 = t ∧ e.2 ∈ T.kinds s t := by
    intro e mem
    rw [log, List.mem_append, List.mem_map] at mem
    exact mem.imp_right fun ⟨_, mem, same⟩ => same ▸ ⟨rfl, mem⟩
  have served : ∀ k, timesOf k (T.round s t).log =
      timesOf k s.log ++ List.replicate ((T.kinds s t).count k) t := by
    intro k
    rw [log, timesOf_append, timesOf_map]
  constructor
  case arrived =>
    rw [served, count_arrival_kinds, takeWhile_eq_replicate, round_eq, List.append_assoc,
      List.takeWhile_append_dropWhile]
    exact inv.arrived
  case finished =>
    intro finished
    rw [round_eq] at finished ⊢
    rcases Bool.or_eq_true_iff.mp finished with finished | empty
    · simp [inv.finished finished]
    · exact of_decide_eq_true empty
  case waiting =>
    intro going
    rw [round_eq, Bool.or_eq_false_iff, decide_eq_false_iff_not] at going
    rw [round_eq]
    exact List.append_ne_nil_of_left_ne_nil going.2 _
  case marked =>
    rw [served, count_ended_kinds, List.length_append, inv.marked, List.length_replicate, round_eq]
    rcases s.finished <;> by_cases empty : s.arrivals.dropWhile (· = t) = [] <;> simp [empty]
  case served =>
    intro k source
    obtain ⟨n, bound, ticks, deadline⟩ := inv.served k source
    rw [served, ticks, count_source_kinds source, round_eq]
    by_cases now : s.due k = some t
    · -- The source is served for the time number `n`.
      have due : T.deadline k n = some t := deadline ▸ now
      refine ⟨n + 1, lt_quota_of_deadline source due, ?_, ?_⟩
      · rw [if_pos now, ticks_succ due]; rfl
      · simp only [source, now, and_self, if_true]
        exact next_deadline due
    · refine ⟨n, bound, ?_, ?_⟩
      · simp only [now, if_false, List.replicate_zero, List.append_nil]
      · simp only [now, and_false, if_false]
        exact deadline
  case past =>
    intro e mem u coming
    rcases logged e mem with old | ⟨now, -⟩
    · exact (before e old).trans (later u coming)
    · exact now ▸ later u coming
  case sorted =>
    rw [log]
    refine List.pairwise_append.mpr ⟨inv.sorted, ?_, ?_⟩
    · exact List.pairwise_map.mpr (kinds_sorted.imp fun ranks => .inr ⟨rfl, ranks⟩)
    · intro a old b new
      obtain ⟨_, _, rfl⟩ := List.mem_map.mp new
      exact .inl (before a old)
  case within =>
    intro e mem'
    rcases logged e mem' with old | ⟨now, -⟩
    · exact inv.within e old
    · exact now ▸ inv.upcoming_le inside mem
  case known =>
    intro e mem'
    rcases logged e mem' with old | ⟨-, new⟩
    · exact inv.known e old
    · exact mem_kinds new

/-- A round takes some of the work. -/
theorem workLeft_round (mem : t ∈ T.upcoming s) : T.workLeft (T.round s t) < T.workLeft s := by
  have fewer : ∀ k ∈ T.order, T.remaining k ((T.round s t).due k) ≤ T.remaining k (s.due k) := by
    intro k source
    rw [round_eq]
    dsimp only
    split
    · next now => rw [now.2]; exact (remaining_next source).le
    · exact le_rfl
  have arrivals : (T.round s t).arrivals.length ≤ s.arrivals.length := by
    rw [round_eq]
    exact (List.dropWhile_suffix _).length_le
  have sources := List.sum_le_sum fewer
  rcases mem_upcoming.mp mem with arrival | ⟨k, source, due⟩
  · -- Some arrival is at the earliest time, so the first one is dropped.
    have fewer_arrivals : (T.round s t).arrivals.length ≠ s.arrivals.length := by
      intro same
      have kept : (T.round s t).arrivals = s.arrivals := by
        rw [round_eq] at same ⊢
        exact (List.dropWhile_suffix _).eq_of_length same
      exact (lt_of_mem_round inv ascending least (mem_upcoming.mpr (.inl (kept ▸ arrival)))).false
    unfold workLeft
    omega
  · have less : T.remaining k ((T.round s t).due k) < T.remaining k (s.due k) := by
      rw [round_eq]
      simp only [source, due, and_self, if_true]
      exact remaining_next source
    have := List.sum_lt_sum _ _ fewer ⟨k, source, less⟩
    unfold workLeft
    omega

end Round

/-! ### The end of a timetable -/

/-- What a timetable has done when nothing is still to come. -/
structure Complete (T : Timetable K) (times : List ℕ) (s : State K) : Prop where
  arrived : timesOf T.arrival s.log = times
  marked : (timesOf T.ended s.log).length = 1
  served : ∀ k ∈ T.order, timesOf k s.log = T.ticks k (T.quota k)
  sorted : s.log.Pairwise T.Before
  within : ∀ e ∈ s.log, e.1 ≤ T.horizon
  known : ∀ e ∈ s.log, e.2 ∈ T.arrival :: T.ended :: T.order

theorem step_eq_some {next : State K} (step : T.step s = some next) :
    ∃ t ∈ T.upcoming s, (∀ u ∈ T.upcoming s, t ≤ u) ∧ next = T.round s t := by
  obtain ⟨t, earliest, rfl⟩ := Option.map_eq_some_iff.mp step
  obtain ⟨mem, least⟩ := List.min?_eq_some_iff.mp earliest
  exact ⟨t, mem, least, rfl⟩

theorem upcoming_of_step (step : T.step s = none) : T.upcoming s = [] :=
  List.min?_eq_none_iff.mp (Option.map_eq_none_iff.mp step)

/-- A timetable with nothing still to come has done everything. -/
theorem Inv.complete (inv : T.Inv times s) (empty : T.upcoming s = []) : T.Complete times s where
  arrived := by
    have := inv.arrived
    rwa [(List.append_eq_nil_iff.mp empty).1, List.append_nil] at this
  marked := by
    rcases finished : s.finished
    · exact absurd empty (inv.waiting finished)
    · rw [inv.marked, finished]; rfl
  served := by
    intro k source
    obtain ⟨n, bound, ticks, deadline⟩ := inv.served k source
    have idle : s.due k = none := by
      by_contra due
      obtain ⟨u, due⟩ := Option.ne_none_iff_exists'.mp due
      have mem : u ∈ T.upcoming s := mem_upcoming.mpr (.inr ⟨k, source, due⟩)
      rw [empty] at mem
      exact List.not_mem_nil mem
    have enough := quota_le_of_deadline source (deadline ▸ idle)
    rw [ticks, Nat.le_antisymm bound enough]
  sorted := inv.sorted
  within := inv.within
  known := inv.known

/-- **The rule of a timetable**: a loop whose rounds are seen as the steps of a timetable comes to
its end, with any number of rounds beyond the work of the timetable, which is then complete. -/
theorem runs {S : Type*} {body : S → Option S} {view : S → State K} {keeps : S → Prop}
    (sim : ∀ s, keeps s → T.Inv times (view s) →
      T.step (view s) = (body s).map view ∧ ∀ next, body s = some next → keeps next)
    (ascending : times.Pairwise (· ≤ ·)) (inside : ∀ u ∈ times, u ≤ T.horizon)
    (source : ∃ k ∈ T.order, T.late k = false) {s : S} (start : keeps s)
    (started : T.Started times (view s)) :
    ∃ last, keeps last ∧ T.Complete times (view last) ∧ (view last).arrivals = [] ∧
      ∀ fuel, times.length + (T.order.map T.quota).sum < fuel →
        While.run body fuel s = some last := by
  have keep : ∀ s next, keeps s ∧ T.Inv times (view s) → body s = some next →
      (keeps next ∧ T.Inv times (view next)) ∧ T.workLeft (view next) < T.workLeft (view s) := by
    rintro s next ⟨kept, inv⟩ round
    obtain ⟨same, keep⟩ := sim s kept inv
    rw [round] at same
    obtain ⟨t, mem, least, seen⟩ := step_eq_some same
    rw [seen]
    exact ⟨⟨keep next round, inv.round ascending least inside mem⟩,
      workLeft_round inv ascending least mem⟩
  obtain ⟨last, ⟨kept, inv⟩, left, runs⟩ :=
    @While.run_of_variant S body (fun s => keeps s ∧ T.Inv times (view s))
      (fun s => T.workLeft (view s)) keep s ⟨start, started.inv source⟩
  rw [started.workLeft] at runs
  have step := (sim last kept inv).1
  rw [left] at step
  have empty := upcoming_of_step step
  exact ⟨last, kept, inv.complete empty, (List.append_eq_nil_iff.mp empty).1, runs⟩

end Invariant

end Timetable
