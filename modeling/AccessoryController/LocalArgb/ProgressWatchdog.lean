import AccessoryController.LocalArgb.GateClosed

/-!
# The progress watchdog

A supervisor samples the progress count of a watched loop. A count that stays the same for too long
is a stall, and the next change of the count ends it; the supervisor answers a stall by closing the
gate of the lighting commands and the end of one by opening it. It samples and answers in turn,
while the publishers run beside it, so the answer is steps among theirs.

## Main definitions

* `ProgressWatchdog`, `ProgressWatchdog.step`: the watchdog over its observations
* `observed h`: the counts that the watchdog has seen, with their times
* `Supervised T`: the gate with its publishers, the supervisor and its watchdog
* `Place.Decided`: the publisher has taken its last look at the gate and found it open

## Main results

* `transitions_alternate`: stalls and resumptions alternate
* `stalled_after_limit`: a stall is reported only past the limit
* `blocked_step`: nothing but a change of the count opens the gate after a stall
* `progress_watchdog`: all three, in every run
-/

namespace AccessoryController.LocalArgb

open VehicleCore Machine Threads

/-! ### The watchdog -/

def kProgressStallFailOffUs : ℕ := 2000000

inductive ProgressTransition
  | none | stalled | resumed
  deriving DecidableEq, Repr

structure ProgressWatchdog where
  lastChangeUs : MonotonicTimestamp := 0
  lastProgress : UInt32 := 0
  armed : Bool := false
  stalled : Bool := false
  deriving DecidableEq, Repr

namespace ProgressWatchdog

def arm (_ : ProgressWatchdog) (progress : UInt32) (nowUs : MonotonicTimestamp) :
    ProgressWatchdog :=
  { lastProgress := progress, lastChangeUs := nowUs, armed := true, stalled := false }

def recordProgress (w : ProgressWatchdog) (progress : UInt32) (nowUs : MonotonicTimestamp) :
    ProgressWatchdog × ProgressTransition :=
  ({ w with lastProgress := progress, lastChangeUs := nowUs, stalled := false },
    if w.stalled then .resumed else .none)

/-- A clock that runs backwards counts as a stall. -/
def boundExceeded (w : ProgressWatchdog) (nowUs : MonotonicTimestamp) : Prop :=
  nowUs < w.lastChangeUs ∨ kProgressStallFailOffUs < nowUs - w.lastChangeUs

instance (w : ProgressWatchdog) (nowUs : MonotonicTimestamp) : Decidable (w.boundExceeded nowUs) :=
  inferInstanceAs (Decidable (_ ∨ _))

def sample (w : ProgressWatchdog) (progress : UInt32) (nowUs : MonotonicTimestamp) :
    ProgressWatchdog × ProgressTransition :=
  if !w.armed then (w, .none)
  else if progress ≠ w.lastProgress then w.recordProgress progress nowUs
  else if w.stalled ∨ ¬w.boundExceeded nowUs then (w, .none)
  else ({ w with stalled := true }, .stalled)

end ProgressWatchdog

/-- What the supervisor's clock and the probe give: the count when it is first watched, which is
accepted once, or a later one. -/
inductive Observation
  | watch (baseline : UInt32) (nowUs : MonotonicTimestamp)
  | sample (progress : UInt32) (nowUs : MonotonicTimestamp)
  deriving DecidableEq, Repr

def Observation.count : Observation → UInt32
  | .watch progress _ | .sample progress _ => progress

def Observation.timeUs : Observation → MonotonicTimestamp
  | .watch _ nowUs | .sample _ nowUs => nowUs

/-- One observation. -/
def ProgressWatchdog.step (w : ProgressWatchdog) :
    Observation → ProgressWatchdog × ProgressTransition
  | .watch baseline nowUs => (if w.armed then w else w.arm baseline nowUs, .none)
  | .sample progress nowUs => w.sample progress nowUs

/-! ### Transitions -/

/-- What a run reports. -/
def transitions (h : List (Observation × ProgressTransition)) : List ProgressTransition :=
  (h.map Prod.snd).filter (· ≠ .none)

/-- Stalls and resumptions in turn. -/
def alternating (n : ℕ) : List ProgressTransition :=
  (List.range n).map fun i => if i % 2 = 0 then .stalled else .resumed

theorem alternating_succ (n : ℕ) :
    alternating (n + 1) = alternating n ++ [if n % 2 = 0 then .stalled else .resumed] := by
  rw [alternating, List.range_succ, List.map_append]
  rfl

/-! ### One observation -/

/-- What one observation does: it is not taken, it is the first, it finds the same count and
nothing to report, it finds another count, or it finds a stall. -/
theorem step_cases (w : ProgressWatchdog) (o : Observation) :
    (w.step o = (w, .none) ∧ (w.armed = false ∧ (∃ p t, o = .sample p t) ∨
        w.armed = true ∧ ∃ p t, o = .watch p t)) ∨
      (w.step o = (w.arm o.count o.timeUs, .none) ∧ w.armed = false ∧ ∃ p t, o = .watch p t) ∨
      (∃ p t, o = .sample p t ∧ w.armed = true ∧
        (w.step o = (w, .none) ∧ p = w.lastProgress ∨
          w.step o = w.recordProgress p t ∧ p ≠ w.lastProgress ∨
          w.step o = ({ w with stalled := true }, .stalled) ∧ p = w.lastProgress ∧
            w.stalled = false ∧ w.boundExceeded t)) := by
  cases o with
  | watch baseline nowUs =>
    unfold ProgressWatchdog.step
    cases harmed : w.armed with
    | true => exact .inl ⟨rfl, .inr ⟨rfl, _, _, rfl⟩⟩
    | false => exact .inr (.inl ⟨rfl, rfl, _, _, rfl⟩)
  | sample progress nowUs =>
    change w.sample progress nowUs = _ ∧ _ ∨ _ ∨ ∃ p t, _ ∧ _ ∧
      (w.sample progress nowUs = _ ∧ _ ∨ w.sample progress nowUs = _ ∧ _ ∨
        w.sample progress nowUs = _ ∧ _)
    unfold ProgressWatchdog.sample
    cases harmed : w.armed with
    | false => exact .inl ⟨rfl, .inl ⟨rfl, _, _, rfl⟩⟩
    | true =>
      refine .inr (.inr ⟨progress, nowUs, rfl, rfl, ?_⟩)
      rw [Bool.not_true, if_neg Bool.false_ne_true]
      split
      · next other => exact .inr (.inl ⟨rfl, other⟩)
      next same =>
      have same : progress = w.lastProgress := Decidable.of_not_not same
      split
      · exact .inl ⟨rfl, same⟩
      · next late =>
        obtain ⟨quiet, late⟩ := not_or.mp late
        exact .inr (.inr ⟨rfl, same, Bool.eq_false_iff.mpr quiet, Decidable.of_not_not late⟩)

/-! ### Alternation -/

/-- The watchdog is stalled exactly after an odd number of reports. -/
structure InTurn (w : ProgressWatchdog) (h : List (Observation × ProgressTransition)) : Prop where
  fresh : w.armed = false → w.stalled = false
  turn : ∃ n, transitions h = alternating n ∧ (w.stalled = true ↔ n % 2 = 1)

theorem transitions_snoc (h : List (Observation × ProgressTransition))
    (event : Observation × ProgressTransition) :
    transitions (h ++ [event]) =
      transitions h ++ if event.2 = .none then [] else [event.2] := by
  unfold transitions
  rw [List.map_append, List.filter_append]
  by_cases quiet : event.2 = .none <;> simp [quiet]

theorem inTurn_step (w : ProgressWatchdog) (h : List (Observation × ProgressTransition))
    (o : Observation) (inTurn : InTurn w h) : InTurn (w.step o).1 (h ++ [(o, (w.step o).2)]) := by
  obtain ⟨fresh, n, reported, turn⟩ := inTurn
  rcases step_cases w o with
    ⟨same, -⟩ | ⟨first, unarmed, -⟩ | ⟨p, t, -, armed, same | changed | late⟩
  · rw [same]
    exact ⟨fresh, n, by rw [transitions_snoc, if_pos rfl, List.append_nil, reported], turn⟩
  · rw [first]
    rw [fresh unarmed] at turn
    exact ⟨nofun, n, by rw [transitions_snoc, if_pos rfl, List.append_nil, reported], turn⟩
  · rw [same.1]
    exact ⟨fresh, n, by rw [transitions_snoc, if_pos rfl, List.append_nil, reported], turn⟩
  · rw [changed.1]
    refine ⟨fun h => absurd (h.symm.trans armed) Bool.false_ne_true, ?_⟩
    unfold ProgressWatchdog.recordProgress
    rw [transitions_snoc]
    cases hstalled : w.stalled with
    | false =>
      rw [hstalled] at turn
      exact ⟨n, by rw [reported]; simp, turn⟩
    | true =>
      have odd := turn.mp hstalled
      refine ⟨n + 1, ?_, by simp; omega⟩
      rw [alternating_succ, reported, odd]
      rfl
  · obtain ⟨same, -, quiet, -⟩ := late
    rw [same]
    refine ⟨fun h => absurd (h.symm.trans armed) Bool.false_ne_true, n + 1, ?_, ?_⟩
    · have even : n % 2 = 0 := by
        have := mt turn.mpr (by rw [quiet]; exact Bool.false_ne_true)
        omega
      rw [transitions_snoc, alternating_succ, reported, even]
      rfl
    · have := mt turn.mpr (by rw [quiet]; exact Bool.false_ne_true)
      simp
      omega

variable {progress : UInt32} (observations : List Observation)

/-- **Stalls and resumptions alternate**, the first one being a stall. -/
theorem transitions_alternate :
    ∃ n, transitions (trace ProgressWatchdog.step {} observations) = alternating n := by
  have inTurn : InTurn (after ProgressWatchdog.step {} observations)
      (trace ProgressWatchdog.step {} observations) :=
    invariant ⟨fun _ => rfl, 0, rfl, by decide⟩ (fun w h o => inTurn_step w h o) observations
  obtain ⟨n, reported, -⟩ := inTurn.turn
  exact ⟨n, reported⟩

/-! ### The limit -/

/-- What the watchdog has seen: the observations from the first watch on, without the watches that
were refused. -/
def observed (observations : List Observation) : List Observation :=
  observations.foldl (fun seen o =>
    match o with
    | .watch _ _ => if seen = [] then [o] else seen
    | .sample _ _ => if seen = [] then seen else seen ++ [o]) []

/-- The count has been the same for a while: since an observation from more than the limit ago. -/
def UnchangedTooLong (seen : List Observation) (progress : UInt32) (nowUs : MonotonicTimestamp) :
    Prop :=
  ∃ before first rest, seen = before ++ first :: rest ∧ first.count = progress ∧
    (∀ o ∈ rest, o.count = progress) ∧ first.timeUs + kProgressStallFailOffUs < nowUs

/-- The last change that the watchdog keeps is the one that it saw. -/
structure KeepsLast (w : ProgressWatchdog) (seen : List Observation) : Prop where
  armed : w.armed = true ↔ seen ≠ []
  last : w.armed = true → ∃ before first rest, seen = before ++ first :: rest ∧
    first.count = w.lastProgress ∧ first.timeUs = w.lastChangeUs ∧
    ∀ o ∈ rest, o.count = w.lastProgress

theorem observed_snoc (h : List Observation) (o : Observation) :
    observed (h ++ [o]) =
      match o with
      | .watch _ _ => if observed h = [] then [o] else observed h
      | .sample _ _ => if observed h = [] then observed h else observed h ++ [o] := by
  unfold observed
  rw [List.foldl_append]
  rfl

theorem mem_of_mem_observed {h : List Observation} {o : Observation} (mem : o ∈ observed h) :
    o ∈ h := by
  induction h using List.reverseRecOn with
  | nil => cases mem
  | append_singleton h x ih =>
    rw [observed_snoc] at mem
    rw [List.mem_append, List.mem_singleton]
    cases x with
    | watch _ _ =>
      dsimp only at mem
      split at mem
      · exact .inr (List.mem_singleton.mp mem)
      · exact .inl (ih mem)
    | sample _ _ =>
      dsimp only at mem
      split at mem
      · exact .inl (ih mem)
      · exact (List.mem_append.mp mem).imp ih List.mem_singleton.mp

theorem keepsLast_step {w : ProgressWatchdog} {h : List Observation} (o : Observation)
    (keeps : KeepsLast w (observed h)) : KeepsLast (w.step o).1 (observed (h ++ [o])) := by
  rw [observed_snoc]
  rcases step_cases w o with ⟨same, ⟨unarmed, p, t, rfl⟩ | ⟨armed, p, t, rfl⟩⟩ |
    ⟨first, unarmed, p, t, rfl⟩ | ⟨p, t, rfl, armed, same | changed | late⟩
  · have nothing : observed h = [] := by
      by_contra some
      exact absurd (unarmed.symm.trans (keeps.armed.mpr some)) Bool.false_ne_true
    simpa only [same, if_pos nothing] using keeps
  · simpa only [same, if_neg (keeps.armed.mp armed)] using keeps
  · have nothing : observed h = [] := by
      by_contra some
      exact absurd (unarmed.symm.trans (keeps.armed.mpr some)) Bool.false_ne_true
    simp only [first, if_pos nothing]
    exact ⟨⟨fun _ => List.cons_ne_nil _ _, fun _ => rfl⟩,
      fun _ => ⟨[], _, [], rfl, rfl, rfl, nofun⟩⟩
  all_goals
    obtain ⟨before, c, rest, seen, count, time, same_count⟩ := keeps.last armed
    simp only [if_neg (keeps.armed.mp armed)]
    have repeats (t : MonotonicTimestamp) :
        KeepsLast w (observed h ++ [.sample w.lastProgress t]) := by
      refine ⟨⟨fun _ => by simp, fun _ => armed⟩, fun _ => ⟨before, c, rest ++ [.sample _ t],
        by rw [seen, List.append_assoc]; rfl, count, time, fun o mem => ?_⟩⟩
      rcases List.mem_append.mp mem with mem | mem
      · exact same_count o mem
      · rw [List.mem_singleton.mp mem]
        rfl
  · obtain ⟨same, rfl⟩ := same
    rw [same]
    exact repeats t
  · obtain ⟨changed, -⟩ := changed
    rw [changed]
    exact ⟨⟨fun _ => by simp, fun _ => armed⟩, fun _ => ⟨observed h, _, [], rfl, rfl, rfl, nofun⟩⟩
  · obtain ⟨same, rfl, -, -⟩ := late
    rw [same]
    exact { repeats t with }

theorem keepsLast_after :
    KeepsLast (after ProgressWatchdog.step {} observations) (observed observations) := by
  induction observations using List.reverseRecOn with
  | nil => exact ⟨⟨nofun, fun some => absurd rfl some⟩, nofun⟩
  | append_singleton h o ih =>
    rw [after_snoc]
    exact keepsLast_step o ih

/-- **A stall is reported only past the limit.** -/
theorem stalled_after_limit (progress : UInt32) (nowUs : MonotonicTimestamp)
    (nondecreasing : ∀ o ∈ observations, o.timeUs ≤ nowUs)
    (stall : ((after ProgressWatchdog.step {} observations).step
      (.sample progress nowUs)).2 = .stalled) :
    UnchangedTooLong (observed observations) progress nowUs := by
  have keeps := keepsLast_after observations
  rcases step_cases (after ProgressWatchdog.step {} observations) (.sample progress nowUs) with
    ⟨same, -⟩ | ⟨first, -⟩ | ⟨p, t, eq, armed, same | changed | late⟩
  · rw [same] at stall
    cases stall
  · rw [first] at stall
    cases stall
  · rw [same.1] at stall
    cases stall
  · rw [changed.1] at stall
    unfold ProgressWatchdog.recordProgress at stall
    split at stall <;> cases stall
  · obtain ⟨-, rfl, -, late⟩ := late
    cases eq
    obtain ⟨before, c, rest, seen, count, time, same_count⟩ := keeps.last armed
    refine ⟨before, c, rest, seen, count, same_count, ?_⟩
    have earlier := nondecreasing c (mem_of_mem_observed (by rw [seen]; simp))
    rw [ProgressWatchdog.boundExceeded, ← time] at late
    rcases late with backwards | late
    · exact absurd earlier (Nat.not_le.mpr backwards)
    · rw [Nat.add_comm]
      exact Nat.add_lt_of_lt_sub late

/-! ### The supervisor and the gate -/

/-- The publisher has taken its last look at the state of the gate, found it open, and is to return
that its command was accepted. -/
def Place.Decided : Place → Prop
  | .compare true _ | .leave true => True
  | _ => False

/-- The places of a call that opens the gate. -/
def Place.Opening : Place → Prop
  | .openEpoch | .openGate => True
  | _ => False

def Place.isIdle : Place → Bool
  | .idle => true
  | _ => false

/-- The calls that only the supervisor makes. -/
def Choice.bySupervisor : Choice → Bool
  | .call .stalled | .call .resumed => true
  | _ => false

/-- The answer to a transition. -/
def ProgressTransition.call? : ProgressTransition → Option Call
  | .none => Option.none
  | .stalled => some .stalled
  | .resumed => some .resumed

/-- The gate with the supervisor, which is the thread `none`, and the other threads. -/
structure Supervised (T : Type*) where
  gate : Gate × (Option T → Place) := atStart
  watchdog : ProgressWatchdog := {}

/-- A step of another thread, an observation, or the next step of the supervisor's answer. -/
inductive SupervisedStep (T : Type*)
  | thread (t : T) (choice : Choice)
  | observe (o : Observation)
  | apply

/-- The supervisor samples when it has nothing left to answer. -/
def Observation.waits : Observation → Bool
  | .watch _ _ => false
  | .sample _ _ => true

section

variable {T : Type*} [DecidableEq T]

def Supervised.step (s : Supervised T) : SupervisedStep T → Supervised T × ProgressTransition
  | .thread t choice =>
    if choice.bySupervisor then (s, .none)
    else ({ s with gate := (Threads.step act s.gate (some t, choice)).1 }, .none)
  | .observe o =>
    if o.waits && !(s.gate.2 none).isIdle then (s, .none)
    else
      let (watchdog, transition) := s.watchdog.step o
      let gate := match transition.call? with
        | none => s.gate
        | some call => (s.gate.1, Function.update s.gate.2 none call.place)
      ({ gate, watchdog }, transition)
  | .apply =>
    if (s.gate.2 none).isIdle then (s, .none)
    else ({ s with gate := (Threads.step act s.gate (none, .answer true)).1 }, .none)

end

/-- The supervisor sees another count. -/
def SupervisedStep.progresses {T : Type*} (progress : UInt32) : SupervisedStep T → Prop
  | .observe (.sample other _) => other ≠ progress
  | _ => False

/-! ### Steps under a closed gate -/

theorem opening_of_act {g : Gate} {p : Place} {c : Choice} (opening : (act g p c).2.Opening) :
    p.Opening ∨ p = .idle ∧ c = .call .resumed := by
  cases p with
  | idle =>
    cases c with
    | call call => cases call <;> first | exact absurd opening not_false | exact .inr ⟨rfl, rfl⟩
    | answer _ => exact absurd opening not_false
  | openEpoch => exact .inl trivial
  | hand => cases c <;> exact absurd opening not_false
  | await =>
    cases c with
    | call _ => exact absurd opening not_false
    | answer expired =>
      simp only [act] at opening
      split at opening
      · exact absurd opening not_false
      · split at opening <;> exact absurd opening not_false
  | check | recheck | compare | shutEpoch =>
    simp only [act] at opening
    split at opening <;> exact absurd opening not_false
  | _ => exact absurd opening not_false

/-- Only the opening exchange opens a gate. -/
theorem not_opened_act {g : Gate} {p : Place} (closed : g.state ≠ .opened) (other : ¬p.Opening)
    (c : Choice) : (act g p c).1.state ≠ .opened := by
  cases p with
  | openGate => exact absurd trivial other
  | close =>
    simp only [act, Gate.exchangeClosed, if_neg closed]
    exact closed
  | shutGate restart =>
    intro opened
    cases opened
  | idle => cases c <;> exact closed
  | hand => cases c <;> exact closed
  | await => cases c <;> exact closed
  | _ => exact closed

/-- The close leaves a gate that is not open. -/
theorem not_opened_exchangeClosed (g : Gate) : g.exchangeClosed.state ≠ .opened := by
  unfold Gate.exchangeClosed
  split
  · exact nofun
  · assumption

/-- A gate that is not open decides nothing in a publisher's favour. -/
theorem not_decided_act {g : Gate} {p : Place} (closed : g.state ≠ .opened) (out : ¬p.Decided)
    (c : Choice) : ¬(act g p c).2.Decided := by
  cases p with
  | recheck accepted epoch =>
    simp only [act, if_neg closed]
    exact not_false
  | compare accepted epoch =>
    cases accepted with
    | true => exact absurd trivial out
    | false =>
      simp only [act]
      split <;> exact not_false
  | check command epoch =>
    simp only [act, if_neg closed]
    exact not_false
  | idle =>
    cases c with
    | call call => cases call <;> exact not_false
    | answer _ => exact not_false
  | hand => cases c <;> exact not_false
  | shutEpoch restart => cases restart <;> exact not_false
  | await =>
    cases c with
    | call _ => exact not_false
    | answer expired =>
      simp only [act]
      split
      · exact not_false
      · split <;> exact not_false
  | _ => exact not_false

section

variable {T : Type*} [DecidableEq T]

/-- A stall of which the supervisor has seen no end: its answer is under way, and once it has
taken the first step of it the gate is not open. -/
structure Blocked (progress : UInt32) (s : Supervised T) : Prop where
  armed : s.watchdog.armed = true
  stalled : s.watchdog.stalled = true
  same : s.watchdog.lastProgress = progress
  others : ∀ t, ¬(s.gate.2 (some t)).Opening
  answer : s.gate.2 none = .close ∨
    (s.gate.2 none = .closeEpoch ∨ s.gate.2 none = .closeBlack ∨ s.gate.2 none = .idle) ∧
      s.gate.1.state ≠ .opened

/-- Only the supervisor opens the gate. -/
theorem others_step {s : Supervised T} (others : ∀ t, ¬(s.gate.2 (some t)).Opening)
    (i : SupervisedStep T) : ∀ t, ¬((s.step i).1.gate.2 (some t)).Opening := by
  intro t
  cases i with
  | thread u choice =>
    simp only [Supervised.step]
    split
    · exact others t
    next free =>
    by_cases here : t = u
    · subst here
      rw [step_self]
      intro opening
      rcases opening_of_act opening with before | ⟨-, rfl⟩
      · exact others t before
      · exact absurd rfl free
    · rw [step_other act s.gate (some u) choice (by simpa using here)]
      exact others t
  | observe o =>
    simp only [Supervised.step]
    split
    · exact others t
    · dsimp only
      split
      · exact others t
      · dsimp only
        rw [Function.update_of_ne (Option.some_ne_none t)]
        exact others t
  | apply =>
    simp only [Supervised.step]
    split
    · exact others t
    · dsimp only
      rw [step_other act s.gate none _ (Option.some_ne_none t)]
      exact others t

/-- While no other count is seen, a step under a stall is a step of one thread on the gate, which
does not open it. -/
theorem blocked_cases {s : Supervised T} (blocked : Blocked progress s) {i : SupervisedStep T}
    (still : ¬i.progresses progress) :
    (s.step i).1.watchdog = s.watchdog ∧
      (i ≠ .apply ∧ (s.step i).1.gate.2 none = s.gate.2 none ∨
        i = .apply ∧ ((s.step i).1.gate.2 none ≠ .close)) ∧
      ((s.step i).1.gate = s.gate ∨ ∃ x choice, ¬(s.gate.2 x).Opening ∧
        (x = none → s.gate.2 none ≠ .idle) ∧
        (s.step i).1.gate = (Threads.step act s.gate (x, choice)).1) := by
  cases i with
  | thread t choice =>
    simp only [Supervised.step]
    split
    · exact ⟨rfl, .inl ⟨nofun, rfl⟩, .inl rfl⟩
    · refine ⟨rfl, .inl ⟨nofun, ?_⟩, .inr ⟨some t, choice, blocked.others t, nofun, rfl⟩⟩
      exact step_other act s.gate (some t) choice (Option.some_ne_none t).symm
  | observe o =>
    -- the watchdog has reported the stall, and sees the same count again
    have silent : s.watchdog.step o = (s.watchdog, .none) := by
      rcases step_cases s.watchdog o with ⟨h, -⟩ | ⟨-, unarmed, -⟩ |
        ⟨p, t, rfl, -, h | h | ⟨-, -, quiet, -⟩⟩
      · exact h
      · exact absurd (unarmed.symm.trans blocked.armed) Bool.false_ne_true
      · exact h.1
      · exact absurd (h.2 ∘ (·.trans blocked.same.symm)) still
      · exact absurd (quiet.symm.trans blocked.stalled) Bool.false_ne_true
    simp only [Supervised.step, silent]
    split <;> exact ⟨rfl, .inl ⟨nofun, rfl⟩, .inl rfl⟩
  | apply =>
    simp only [Supervised.step]
    split
    · next idle =>
      refine ⟨rfl, .inr ⟨trivial, fun closing => ?_⟩, .inl rfl⟩
      rw [closing] at idle
      cases idle
    next busy =>
    refine ⟨rfl, .inr ⟨trivial, ?_⟩, .inr ⟨none, .answer true, ?_, fun _ idle => ?_, rfl⟩⟩
    · dsimp only
      rw [step_self]
      rcases blocked.answer with h | ⟨h | h | h, -⟩ <;> rw [h] <;> exact nofun
    · rcases blocked.answer with h | ⟨h | h | h, -⟩ <;> rw [h] <;> exact not_false
    · rw [idle] at busy
      exact busy rfl

/-- **Nothing but a change of the count opens the gate after a stall.** -/
theorem blocked_step {s : Supervised T} (blocked : Blocked progress s) {i : SupervisedStep T}
    (still : ¬i.progresses progress) : Blocked progress (s.step i).1 := by
  obtain ⟨watchdog, -, gate⟩ := blocked_cases blocked still
  refine ⟨watchdog ▸ blocked.armed, watchdog ▸ blocked.stalled, watchdog ▸ blocked.same,
    others_step blocked.others i, ?_⟩
  rcases gate with same | ⟨x, choice, other, busy, moved⟩
  · rw [same]
    exact blocked.answer
  rw [moved, step_shared]
  cases x with
  | some t =>
    rw [step_other act s.gate (some t) choice (Option.some_ne_none t).symm]
    exact blocked.answer.imp_right fun h => ⟨h.1, not_opened_act h.2 other choice⟩
  | none =>
    rw [step_self]
    rcases blocked.answer with h | ⟨h | h | h, closed⟩
    · rw [h]
      exact .inr ⟨.inl rfl, not_opened_exchangeClosed _⟩
    · rw [h]
      exact .inr ⟨.inr (.inl rfl), closed⟩
    · rw [h]
      exact .inr ⟨.inr (.inr rfl), closed⟩
    · exact absurd h (busy rfl)

/-- Once the supervisor has made the close, no publisher is told that its command was accepted
unless that was decided before. -/
theorem undecided_step {s : Supervised T} (blocked : Blocked progress s)
    (closed : s.gate.1.state ≠ .opened) {t : T} (out : ¬(s.gate.2 (some t)).Decided)
    {i : SupervisedStep T} (still : ¬i.progresses progress) :
    ¬((s.step i).1.gate.2 (some t)).Decided := by
  obtain ⟨-, -, same | ⟨x, choice, -, -, moved⟩⟩ := blocked_cases blocked still
  · rw [same]
    exact out
  rw [moved]
  by_cases here : some t = x
  · subst here
    rw [step_self]
    exact not_decided_act closed out choice
  · rw [step_other act s.gate x choice here]
    exact out

end

/-! ### Every run -/

section

variable {T : Type*} [DecidableEq T]

theorem others_after (run : List (SupervisedStep T)) (t : T) :
    ¬((after Supervised.step ({} : Supervised T) run).gate.2 (some t)).Opening := by
  induction run using List.reverseRecOn generalizing t with
  | nil => exact not_false
  | append_singleton run i ih =>
    rw [after_snoc]
    exact others_step ih i t

/-- A stall that is reported blocks the gate. -/
theorem blocked_of_stalled {s : Supervised T} (others : ∀ t, ¬(s.gate.2 (some t)).Opening)
    {nowUs : MonotonicTimestamp} (stall : (s.step (.observe (.sample progress nowUs))).2 = .stalled) :
    Blocked progress (s.step (.observe (.sample progress nowUs))).1 := by
  simp only [Supervised.step] at stall ⊢
  split at stall
  · cases stall
  rw [if_neg (by assumption)]
  rcases step_cases s.watchdog (.sample progress nowUs) with ⟨h, -⟩ | ⟨h, -⟩ |
    ⟨p, t, eq, armed, h | h | ⟨h, same, -⟩⟩
  · rw [h] at stall
    cases stall
  · rw [h] at stall
    cases stall
  · rw [h.1] at stall
    cases stall
  · rw [h.1, ProgressWatchdog.recordProgress] at stall
    dsimp only at stall
    split at stall <;> cases stall
  · obtain ⟨rfl, rfl⟩ := Observation.sample.inj eq
    rw [h]
    refine ⟨armed, rfl, same.symm, fun t => ?_, .inl ?_⟩
    · dsimp only [ProgressTransition.call?]
      rw [Function.update_of_ne (Option.some_ne_none t)]
      exact others t
    · exact Function.update_self none Place.close s.gate.2

/-- The close has been made, and the gate stays closed. -/
theorem closed_after {s : Supervised T} (blocked : Blocked progress s)
    {run : List (SupervisedStep T)} (still : ∀ i ∈ run, ¬i.progresses progress)
    (answered : SupervisedStep.apply ∈ run ∨ s.gate.2 none ≠ Place.close) :
    Blocked progress (after Supervised.step s run) ∧
      (after Supervised.step s run).gate.2 none ≠ .close := by
  induction run generalizing s with
  | nil => exact ⟨blocked, answered.resolve_left List.not_mem_nil⟩
  | cons i run ih =>
    have here := still i List.mem_cons_self
    refine ih (blocked_step blocked here) (fun j mem => still j (List.mem_cons_of_mem _ mem)) ?_
    rcases (blocked_cases blocked here).2.1 with ⟨other, kept⟩ | ⟨-, answered⟩
    · rcases answered with mem | made
      · rcases List.mem_cons.mp mem with rfl | mem
        · exact absurd rfl other
        · exact .inl mem
      · exact .inr (kept ▸ made)
    · exact .inr answered

omit [DecidableEq T] in
theorem Blocked.closed {s : Supervised T} (blocked : Blocked progress s)
    (made : s.gate.2 none ≠ .close) : s.gate.1.state ≠ .opened :=
  (blocked.answer.resolve_left made).2

/-- Every step after the close finds the gate closed. -/
theorem undecided_after {s : Supervised T} (blocked : Blocked progress s)
    (made : s.gate.2 none ≠ .close) {t : T} (out : ¬(s.gate.2 (some t)).Decided)
    {run : List (SupervisedStep T)} (still : ∀ i ∈ run, ¬i.progresses progress) :
    ¬((after Supervised.step s run).gate.2 (some t)).Decided := by
  induction run generalizing s with
  | nil => exact out
  | cons i run ih =>
    have here := still i List.mem_cons_self
    have first : ∀ j ∈ [i], ¬j.progresses progress := fun j mem => List.mem_singleton.mp mem ▸ here
    exact ih (blocked_step blocked here) (closed_after blocked first (.inr made)).2
      (undecided_step blocked (blocked.closed made) out here)
      fun j mem => still j (List.mem_cons_of_mem _ mem)

/-- **The progress watchdog.** In every run of observations, stalls and resumptions alternate, a
stall being the first, and with times that do not decrease a stall is reported only where the
count has been the same for more than the limit. In every run of the supervisor among other
threads, once the supervisor has closed the gate for a stall, and as long as it sees no other
count, the gate is not open, and no publisher is told that its command was accepted unless it had
taken its last look at the gate before. -/
theorem progress_watchdog :
    (∀ observations,
      (∃ n, transitions (trace ProgressWatchdog.step {} observations) = alternating n) ∧
      ∀ progress nowUs, (∀ o ∈ observations, o.timeUs ≤ nowUs) →
        ((after ProgressWatchdog.step {} observations).step (.sample progress nowUs)).2 =
            .stalled →
          UnchangedTooLong (observed observations) progress nowUs) ∧
    ∀ (before : List (SupervisedStep T)) (progress : UInt32) (nowUs : MonotonicTimestamp)
      (answer later : List (SupervisedStep T)),
      let s := after Supervised.step ({} : Supervised T) before
      let closed := after Supervised.step (s.step (.observe (.sample progress nowUs))).1 answer
      let s' := after Supervised.step closed later
      (s.step (.observe (.sample progress nowUs))).2 = .stalled → .apply ∈ answer →
        (∀ i ∈ answer ++ later, ¬i.progresses progress) →
        s'.gate.1.state ≠ .opened ∧ ∀ t, ¬(closed.gate.2 (some t)).Decided →
          ¬(s'.gate.2 (some t)).Decided := by
  refine ⟨fun observations => ⟨transitions_alternate observations, fun progress nowUs =>
    stalled_after_limit observations progress nowUs⟩, ?_⟩
  intro before progress nowUs answer later s closed s' stall answered still
  have blocked := blocked_of_stalled (others_after before) stall
  obtain ⟨blockedClosed, made⟩ := closed_after blocked
    (fun i mem => still i (List.mem_append_left _ mem)) (.inl answered)
  have stillLater := fun i mem => still i (List.mem_append_right _ mem)
  obtain ⟨blocked', made'⟩ := closed_after blockedClosed stillLater (.inr made)
  exact ⟨blocked'.closed made', fun t out => undecided_after blockedClosed made out stillLater⟩

end

/-- A count that stays at seven for longer than the limit closes the gate, and a publisher that
comes then is refused. -/
theorem progress_watchdog_seven :
    let run : List (SupervisedStep Unit) :=
      [.observe (.watch 7 10), .observe (.sample 7 2000011), .apply,
        .thread () (.call (.publish { leftTurn := true })), .thread () (.answer true),
        .thread () (.answer true), .thread () (.answer true)]
    let s := after Supervised.step {} run
    s.gate.1.state ≠ .opened ∧ ¬(s.gate.2 (some ())).Decided := by
  have told := (progress_watchdog (T := Unit)).2 [.observe (.watch 7 10)] 7 2000011 [.apply]
    [.thread () (.call (.publish { leftTurn := true })), .thread () (.answer true),
      .thread () (.answer true), .thread () (.answer true)] (by decide) List.mem_cons_self
    (by rintro _ (_ | ⟨_, _ | ⟨_, _ | ⟨_, _ | ⟨_, _ | ⟨_, ⟨⟩⟩⟩⟩⟩⟩) <;> exact not_false)
  exact ⟨told.1, told.2 () not_false⟩

end AccessoryController.LocalArgb
