import Mathlib.Tactic.Linarith
import Mathlib.Tactic.Positivity
import AccessoryController.Library.Machine
import AccessoryController.Replay.PlaybackPacer

/-!
# The pacer loses and repeats no replay time

The replay time that was played since a pass began is the sum of its stretches between commands,
each at the rate then in force unless it was paused. The pacer keeps an anchor on this time, rounded
down, and releases a step once the anchor and the stretch since have reached its due time.

## Main definitions

* `Setting`, `played`: the stretches of a pass, and the replay time that they played
* `Paced`: the runs of a session with a clock that never goes back and due times that never descend
* `PacerInv`: what holds between the anchor and the replay time that was played

## Main results

* `wallSpan_le_iff`: the spans of a rate belong together
* `wallTarget_le_iff`: a target is reached exactly when the replay time is
* `pacer_step`: a step keeps the invariant
-/

namespace AccessoryController.Replay

open VehicleCore Checked Machine
open PlaybackSession (step)

/-! ### Spans -/

/-- The quotient that a scaled value stands for. -/
def scaled (value multiplier divisor : ℕ) (roundUp : Bool) : ℕ :=
  if roundUp then (value * multiplier + (divisor - 1)) / divisor else value * multiplier / divisor

/-- The terms of a rate. -/
def Small (n : ℕ) : Prop := 0 < n ∧ n ≤ 5

theorem ceil_div {n divisor : ℕ} (positive : 0 < divisor) :
    (n + (divisor - 1)) / divisor = n / divisor + if n % divisor ≠ 0 then 1 else 0 := by
  obtain ⟨q, r, small, rfl⟩ : ∃ q r, r < divisor ∧ n = divisor * q + r :=
    ⟨n / divisor, n % divisor, Nat.mod_lt n positive, (Nat.div_add_mod n divisor).symm⟩
  rw [Nat.add_assoc, Nat.mul_add_div positive, Nat.mul_add_div positive, Nat.mul_add_mod,
    Nat.mod_eq_of_lt small, Nat.div_eq_of_lt small, Nat.add_zero]
  by_cases zero : r = 0
  · rw [zero, if_neg (not_not_intro rfl), Nat.zero_add, Nat.div_eq_of_lt (by omega)]
  · have one : (r + (divisor - 1)) / divisor = 1 := Nat.div_eq_of_lt_le (by omega) (by omega)
    rw [if_pos zero, one]

theorem scaled_eq {value multiplier divisor : ℕ} (positive : 0 < divisor) (roundUp : Bool) :
    scaled value multiplier divisor roundUp = value / divisor * multiplier +
      (value % divisor * multiplier / divisor +
        if roundUp && value % divisor * multiplier % divisor ≠ 0 then 1 else 0) := by
  have parts : value * multiplier =
      divisor * (value / divisor * multiplier) + value % divisor * multiplier := by
    conv_lhs => rw [← Nat.div_add_mod value divisor, Nat.add_mul, Nat.mul_assoc]
  cases roundUp with
  | false =>
    rw [scaled, if_neg Bool.false_ne_true, parts, Nat.mul_add_div positive]
    rfl
  | true =>
    rw [scaled, if_pos rfl, parts, Nat.add_assoc, Nat.mul_add_div positive, ceil_div positive]
    simp only [Bool.true_and, ne_eq, decide_not, Bool.not_eq_true', decide_eq_false_iff_not]

/-- **A scaled value is exact up to saturation**, and no operation leaves its type. -/
theorem scale_eq {value multiplier divisor : ℕ} (multiplies : Small multiplier)
    (divides : Small divisor) (roundUp : Bool) :
    scale value multiplier divisor roundUp =
      .ok (min kMaxUnsigned (scaled value multiplier divisor roundUp)) := by
  obtain ⟨positive, few⟩ := multiplies
  obtain ⟨divisor_pos, small⟩ := divides
  have rest : value % divisor * multiplier ≤ 25 := by
    have := Nat.mod_lt value divisor_pos
    calc value % divisor * multiplier ≤ 5 * 5 := Nat.mul_le_mul (by omega) few
      _ = 25 := rfl
  have quotient_le : value % divisor * multiplier / divisor ≤ 25 :=
    Nat.le_trans (Nat.div_le_self _ _) rest
  have carry : (if roundUp && value % divisor * multiplier % divisor ≠ 0 then 1 else 0) ≤ 1 := by
    split <;> omega
  rw [scaled_eq divisor_pos]
  have kmax : kMaxUnsigned = 2 ^ 64 - 1 := rfl
  simp only [scale, quotient_eq divisor_pos.ne', remainder_eq divisor_pos.ne',
    quotient_eq positive.ne', ok_bind]
  by_cases large : kMaxUnsigned / multiplier < value / divisor
  · -- the whole part alone passes the largest value
    have beyond : kMaxUnsigned < value / divisor * multiplier :=
      (Nat.div_lt_iff_lt_mul positive).mp large
    rw [if_pos large, Nat.min_eq_left (Nat.le_trans beyond.le (Nat.le_add_right _ _))]
    rfl
  have whole : value / divisor * multiplier ≤ kMaxUnsigned :=
    (Nat.le_div_iff_mul_le positive).mp (Nat.le_of_not_lt large)
  rw [if_neg large, mul_eq (Nat.lt_of_le_of_lt whole (by decide)), ok_bind,
    mul_eq (Nat.lt_of_le_of_lt rest (by decide)), ok_bind, add_eq (by omega), ok_bind,
    sub_eq (by omega), ok_bind]
  have fraction_le := Nat.add_le_add quotient_le carry
  generalize value % divisor * multiplier / divisor +
    (if roundUp && value % divisor * multiplier % divisor ≠ 0 then 1 else 0) = fraction at *
  generalize value / divisor * multiplier = product at *
  by_cases full : kMaxUnsigned - fraction < product
  · rw [if_pos full, Nat.min_eq_left (by omega)]
    rfl
  · rw [if_neg full, add_eq (by omega), Nat.min_eq_right (by omega)]

namespace PlaybackRate

variable (rate : PlaybackRate)

theorem small_numerator : Small rate.numerator := by cases rate <;> exact ⟨by decide, by decide⟩

theorem small_denominator : Small rate.denominator := by
  cases rate <;> exact ⟨by decide, by decide⟩

/-- The factor from wall time to replay time. -/
def value : ℚ := rate.numerator / rate.denominator

theorem value_pos : 0 < rate.value :=
  div_pos (Nat.cast_pos.mpr rate.small_numerator.1) (Nat.cast_pos.mpr rate.small_denominator.1)

theorem wallSpan_eq (replayUs : ℕ) : rate.wallSpan replayUs =
    .ok (min kMaxMicroseconds (scaled replayUs rate.denominator rate.numerator true)) := by
  have sizes : kMaxMicroseconds ≤ kMaxUnsigned := by decide
  rw [wallSpan, scale_eq rate.small_denominator rate.small_numerator, ok_bind]
  split
  · exact congrArg Except.ok (by omega)
  · exact congrArg Except.ok (by omega)

theorem replaySpan_eq {wall : ℤ} (forward : 0 ≤ wall) : rate.replaySpan wall =
    .ok (min kMaxUnsigned (scaled wall.toNat rate.numerator rate.denominator false)) := by
  rw [replaySpan]
  split
  · have still : wall = 0 := by omega
    subst still
    rw [scaled, if_neg Bool.false_ne_true, Int.toNat_zero, Nat.zero_mul, Nat.zero_div]
    rfl
  · exact scale_eq rate.small_numerator rate.small_denominator false

/-- The exact spans belong together: one rounds up what the other one rounds down. -/
theorem scaled_le_iff (replayUs wall : ℕ) :
    scaled replayUs rate.denominator rate.numerator true ≤ wall ↔
      replayUs ≤ scaled wall rate.numerator rate.denominator false := by
  have numerator_pos := rate.small_numerator.1
  rw [scaled, if_pos rfl, scaled, if_neg Bool.false_ne_true,
    Nat.le_div_iff_mul_le rate.small_denominator.1, ← Nat.lt_succ_iff,
    Nat.div_lt_iff_lt_mul numerator_pos, Nat.succ_mul]
  omega

/-- **The spans of a rate belong together** below saturation: replay time fits into wall time
exactly if its wall time does. -/
theorem wallSpan_le_iff {replayUs : ℕ} (word : replayUs ≤ kMaxUnsigned) {wall : ℕ}
    (below : wall < kMaxMicroseconds) :
    ∃ span played, rate.wallSpan replayUs = .ok span ∧ rate.replaySpan wall = .ok played ∧
      (span ≤ wall ↔ replayUs ≤ played) := by
  refine ⟨_, _, rate.wallSpan_eq replayUs, rate.replaySpan_eq (Int.natCast_nonneg wall), ?_⟩
  rw [Int.toNat_natCast, le_min_iff, ← rate.scaled_le_iff, min_le_iff]
  exact ⟨fun h => ⟨word, h.resolve_left (Nat.not_le_of_lt below)⟩, fun h => .inr h.2⟩

/-- Replay time fits into wall time exactly if so much is played. -/
theorem scaled_le_iff_value (replayUs wall : ℕ) :
    scaled replayUs rate.denominator rate.numerator true ≤ wall ↔
      (replayUs : ℚ) ≤ rate.value * wall := by
  have denominator_pos : (0 : ℚ) < rate.denominator :=
    Nat.cast_pos.mpr rate.small_denominator.1
  rw [scaled_le_iff, scaled, if_neg Bool.false_ne_true,
    Nat.le_div_iff_mul_le rate.small_denominator.1, value, div_mul_eq_mul_div,
    le_div_iff₀ denominator_pos]
  norm_cast
  rw [Nat.mul_comm wall]

/-- What is played in whole microseconds is no more than what is played. -/
theorem scaled_le_value (wall : ℕ) :
    ((scaled wall rate.numerator rate.denominator false : ℕ) : ℚ) ≤ rate.value * wall :=
  (rate.scaled_le_iff_value _ _).mp ((rate.scaled_le_iff _ _).mpr (Nat.le_refl _))

end PlaybackRate

/-! ### Timelines -/

/-- A reading of a wall clock that is not so near to the end of its range that the pacer could
not sleep for a slice. -/
def Readable (now : ℤ) : Prop := 0 ≤ now ∧ now + kPlaybackCommandSlice ≤ kMaxMicroseconds

variable {now : ℤ} {session : PlaybackSession} {due : MonotonicTimestamp}

theorem Readable.signed (readable : Readable now) :
    signed 64 (now + kPlaybackCommandSlice) = .ok (now + kPlaybackCommandSlice) := by
  obtain ⟨low, high⟩ := readable
  refine signed_eq ?_
  simp only [kPlaybackCommandSlice, kMaxMicroseconds] at high ⊢
  omega

/-- **A target is reached exactly when the replay time is**, as the timeline plays it. -/
theorem wallTarget_le_iff {timeline : PlaybackTimeline} (due : MonotonicTimestamp)
    (start : 0 ≤ timeline.anchorWall) (later : timeline.anchorWall ≤ now)
    (readable : Readable now) :
    ∃ target, timeline.wallTarget due = .ok target ∧
      (target ≤ now ↔ (due : ℚ) ≤ timeline.anchorReplay +
        timeline.rate.value * (now - timeline.anchorWall : ℤ)) := by
  obtain ⟨low, high⟩ := readable
  simp only [kPlaybackCommandSlice, kMaxMicroseconds] at high
  obtain ⟨elapsed, rfl⟩ : ∃ elapsed : ℕ, now = timeline.anchorWall + elapsed :=
    ⟨(now - timeline.anchorWall).toNat, by omega⟩
  have played : 0 ≤ timeline.rate.value * elapsed :=
    mul_nonneg timeline.rate.value_pos.le (Nat.cast_nonneg elapsed)
  rw [add_sub_cancel_left, Int.cast_natCast, PlaybackTimeline.wallTarget]
  by_cases reached : due ≤ timeline.anchorReplay
  · have past : (due : ℚ) ≤ timeline.anchorReplay := Nat.cast_le.mpr reached
    rw [if_pos reached]
    exact ⟨_, rfl, fun _ => by linarith, fun _ => later⟩
  obtain ⟨ahead, rfl⟩ := Nat.exists_eq_add_of_le (Nat.le_of_not_le reached)
  have room : signed 64 (kMaxMicroseconds - timeline.anchorWall) =
      .ok (kMaxMicroseconds - timeline.anchorWall) := by
    refine signed_eq ?_
    simp only [kMaxMicroseconds]
    omega
  have exact_target : scaled ahead timeline.rate.denominator timeline.rate.numerator true ≤
      elapsed ↔ ((timeline.anchorReplay + ahead : ℕ) : ℚ) ≤
        timeline.anchorReplay + timeline.rate.value * elapsed := by
    rw [timeline.rate.scaled_le_iff_value, Nat.cast_add]
    exact ⟨fun h => by linarith, fun h => by linarith⟩
  rw [if_neg reached, sub_eq (Nat.le_add_right _ _), ok_bind, Nat.add_sub_cancel_left,
    timeline.rate.wallSpan_eq, ok_bind, room, ok_bind, ← exact_target]
  generalize scaled ahead timeline.rate.denominator timeline.rate.numerator true = span
  split
  · rename_i saturates
    refine ⟨_, rfl, ?_⟩
    simp only [kMaxMicroseconds] at saturates ⊢
    omega
  · rename_i fits
    simp only [kMaxMicroseconds] at fits ⊢
    refine ⟨_, signed_eq ?_, ?_⟩
    · omega
    · omega

/-- The position of a timeline is between its anchor and what it plays since. -/
theorem position_spec {timeline : PlaybackTimeline} (start : 0 ≤ timeline.anchorWall)
    (later : timeline.anchorWall ≤ now) (readable : Readable now)
    (word : timeline.anchorReplay ≤ maxTimestamp) :
    ∃ position, timeline.position now = .ok position ∧ timeline.anchorReplay ≤ position ∧
      position ≤ maxTimestamp ∧ (position : ℚ) ≤ timeline.anchorReplay +
        timeline.rate.value * (now - timeline.anchorWall : ℤ) := by
  obtain ⟨low, high⟩ := readable
  simp only [kPlaybackCommandSlice, kMaxMicroseconds] at high
  obtain ⟨elapsed, rfl⟩ : ∃ elapsed : ℕ, now = timeline.anchorWall + elapsed :=
    ⟨(now - timeline.anchorWall).toNat, by omega⟩
  have range : signed 64 (timeline.anchorWall + elapsed - timeline.anchorWall) =
      .ok (elapsed : ℤ) := by
    rw [add_sub_cancel_left]
    exact signed_eq (by omega)
  rw [PlaybackTimeline.position, range, ok_bind,
    timeline.rate.replaySpan_eq (Int.natCast_nonneg elapsed), ok_bind, sub_eq word, ok_bind,
    add_sub_cancel_left, Int.cast_natCast, Int.toNat_natCast]
  have exact_value := timeline.rate.scaled_le_value elapsed
  generalize scaled elapsed timeline.rate.numerator timeline.rate.denominator false = played at *
  have bounded : ((min kMaxUnsigned played : ℕ) : ℚ) ≤ timeline.rate.value * elapsed :=
    le_trans (Nat.cast_le.mpr (Nat.min_le_right _ _)) exact_value
  generalize min kMaxUnsigned played = counted at *
  split
  · rename_i saturates
    refine ⟨_, rfl, word, Nat.le_refl _, ?_⟩
    have small : ((maxTimestamp : ℕ) : ℚ) ≤ ((timeline.anchorReplay + counted : ℕ) : ℚ) :=
      Nat.cast_le.mpr (Nat.add_comm _ _ ▸ Nat.le_add_of_sub_le (Nat.le_of_lt saturates))
    rw [Nat.cast_add] at small
    linarith
  · rename_i fits
    have sum : timeline.anchorReplay + counted ≤ maxTimestamp :=
      Nat.add_le_of_le_sub' word (Nat.le_of_not_lt fits)
    refine ⟨_, add_eq (Nat.lt_of_le_of_lt sum (by decide)), Nat.le_add_right _ _, sum, ?_⟩
    rw [Nat.cast_add]
    linarith

/-! ### Passes -/

/-- A setting of the playback, from a wall time on. -/
structure Setting where
  wall : ℤ
  paused : Bool
  rate : PlaybackRate
  deriving DecidableEq, Repr

/-- The setting after a command. -/
def Setting.obey (setting : Setting) (now : ℤ) : PlaybackCommand → Setting
  | .setRate rate => ⟨now, setting.paused, rate⟩
  | .pause => ⟨now, true, setting.rate⟩
  | .play | .restart => ⟨now, false, setting.rate⟩

/-- The replay time that a setting plays until a wall time. -/
def Setting.plays (setting : Setting) (now : ℤ) : ℚ :=
  if setting.paused then 0 else setting.rate.value * (now - setting.wall : ℤ)

/-- The replay time that was played under settings, of which the newest comes first. -/
def played : List Setting → ℤ → ℚ
  | [], _ => 0
  | setting :: older, now => setting.plays now + played older setting.wall

/-- What is seen of a pass: the last reading of the wall clock, the setting in force, those before
it with the newest first, and the due times that were offered, with the last one first. -/
structure Pass where
  reading : ℤ
  setting : Setting
  older : List Setting := []
  offered : List MonotonicTimestamp := []
  deriving DecidableEq, Repr

namespace Pass

def create (now : ℤ) : Pass := { reading := now, setting := ⟨now, false, .normal⟩ }

variable (pass : Pass)

/-- The replay time that was played since the pass began. -/
def played (now : ℤ) : ℚ := Replay.played (pass.setting :: pass.older) now

/-- What is seen after an input that was taken. A pass keeps the rate of the one before it. -/
def take : PacerInput → Pass
  | .beginReplay now => { reading := now, setting := ⟨now, false, pass.setting.rate⟩ }
  | .admitAt due => { pass with offered := due :: pass.offered }
  | .awaitRestart => pass
  | .poll (.command .restart) now => { pass with reading := now }
  | .poll (.command command) now =>
    { pass with
      reading := now, setting := pass.setting.obey now command
      older := pass.setting :: pass.older }
  | .poll _ now | .check now => { pass with reading := now }

/-- What is seen after an input with its output. -/
def next (entry : PacerInput × PacerOutput) : Pass :=
  if entry.2 = .ignored then pass else pass.take entry.1

/-- An input goes on with a clock that never goes back nor passes `latest`, and with due times
that never descend in a pass. -/
def Admits (latest : ℤ) : PacerInput → Prop
  | .beginReplay now | .poll _ now | .check now => pass.reading ≤ now ∧ now ≤ latest
  | .admitAt due => due ≤ maxTimestamp ∧ ∀ earlier ∈ pass.offered, earlier ≤ due
  | .awaitRestart => True

instance (latest : ℤ) : DecidablePred (pass.Admits latest)
  | .beginReplay _ | .poll _ _ | .check _ => inferInstanceAs (Decidable (_ ∧ _))
  | .admitAt _ => inferInstanceAs (Decidable (_ ∧ _))
  | .awaitRestart => .isTrue trivial

end Pass

/-- **The runs of a session** with such a clock and such due times. Nothing is asked of an input
that the pacer does not take. -/
def Paced (latest : ℤ) : PlaybackSession → Pass → List PacerInput → Prop
  | _, _, [] => True
  | session, pass, input :: rest =>
    ((session.step input).2 ≠ .ignored → pass.Admits latest input) ∧
      Paced latest (session.step input).1 (pass.next (input, (session.step input).2)) rest

instance decidablePaced (latest : ℤ) :
    ∀ session pass inputs, Decidable (Paced latest session pass inputs)
  | _, _, [] => .isTrue trivial
  | session, pass, input :: rest =>
    have := decidablePaced latest (session.step input).1
      (pass.next (input, (session.step input).2)) rest
    inferInstanceAs (Decidable (_ ∧ _))

/-- The latest reading from which the pacer can sleep for a slice. -/
def lastReadable : ℤ := kMaxMicroseconds - kPlaybackCommandSlice

/-- What holds between the pacer and the pass that is seen. -/
structure PacerInv (pass : Pass) (session : PlaybackSession) : Prop where
  setting : pass.setting = ⟨session.pacer.timeline.anchorWall, session.pacer.paused,
    session.pacer.timeline.rate⟩
  start : 0 ≤ session.pacer.timeline.anchorWall
  passed : session.pacer.timeline.anchorWall ≤ pass.reading
  /-- The anchor is on the replay time that was played, or behind it. -/
  anchored : (session.pacer.timeline.anchorReplay : ℚ) ≤
    played pass.older session.pacer.timeline.anchorWall
  word : session.pacer.timeline.anchorReplay ≤ maxTimestamp
  /-- The anchor never passes the due time that is pending. -/
  pending : ∀ due ∈ pass.offered.head?, session.pacer.timeline.anchorReplay ≤ due
  unoffered : pass.offered = [] → session.pacer.timeline.anchorReplay = 0
  place : ∀ due, session.place = .draining due ∨ session.place = .checking due →
    pass.offered.head? = some due
  /-- Nothing was rounded before the first command. -/
  fresh : pass.older = [] →
    session.pacer.timeline.anchorReplay = 0 ∧ session.pacer.paused = false

theorem readable_of_le (start : 0 ≤ now) (latest : now ≤ lastReadable) : Readable now := by
  refine ⟨start, ?_⟩
  rw [lastReadable] at latest
  omega

variable {pass : Pass}

/-- What was played counts up to the anchor, and from it on in the setting in force. -/
theorem PacerInv.played_eq (inv : PacerInv pass session) (now : ℤ) :
    pass.played now = pass.setting.plays now +
      played pass.older session.pacer.timeline.anchorWall := by
  rw [Pass.played, played, inv.setting]

variable {result : Checked (PlaybackSession × PacerOutput)}

section Steps

variable {pass : Pass} {session : PlaybackSession} (inv : PacerInv pass session)

include inv

/-- A new pass begins at zero. -/
theorem PacerInv.begun (later : pass.reading ≤ now) :
    PacerInv (pass.take (.beginReplay now)) ⟨session.pacer.beginReplay now, .idle⟩ where
  setting := by
    rw [Pass.take, PlaybackPacer.beginReplay, inv.setting]
  start := le_trans inv.start (le_trans inv.passed later)
  passed := le_refl now
  anchored := le_of_eq Nat.cast_zero
  word := Nat.zero_le _
  pending := fun _ offered => nomatch offered
  unoffered := fun _ => rfl
  place := fun _ place => place.elim nofun nofun
  fresh := fun _ => ⟨rfl, rfl⟩

/-- A due time is offered: it is pending, and no less than the one before it. -/
theorem PacerInv.offered (descends : ∀ earlier ∈ pass.offered, earlier ≤ due) :
    PacerInv (pass.take (.admitAt due)) { session with place := .draining due } where
  setting := inv.setting
  start := inv.start
  passed := inv.passed
  anchored := inv.anchored
  word := inv.word
  pending := by
    intro last offered
    obtain rfl := Option.some.inj offered
    rcases before : pass.offered with _ | ⟨earlier, rest⟩
    · exact inv.unoffered before ▸ Nat.zero_le _
    · have anchor := inv.pending earlier (by rw [before]; rfl)
      exact Nat.le_trans anchor (descends earlier (by rw [before]; exact List.mem_cons_self))
  unoffered := nofun
  place := fun last place => place.elim (fun same => by cases same; rfl) nofun
  fresh := inv.fresh

/-- Where the pacer goes on in a call, or leaves it. -/
def PacerPlace.Follows (place before : PacerPlace) : Prop :=
  ∀ due, place = .draining due ∨ place = .checking due →
    before = .draining due ∨ before = .checking due

/-- The pacer read its clock and anchored nothing. -/
theorem PacerInv.moved {reading : ℤ} (later : pass.reading ≤ reading)
    {pacer : PlaybackPacer} {place : PacerPlace}
    (timeline : pacer.timeline = session.pacer.timeline)
    (paused : pacer.paused = session.pacer.paused) (follows : place.Follows session.place) :
    PacerInv { pass with reading } ⟨pacer, place⟩ := by
  obtain ⟨setting, start, passed, anchored, word, pending, unoffered, places, fresh⟩ := inv
  rw [← timeline] at setting start passed anchored word pending unoffered fresh
  rw [← paused] at setting fresh
  exact ⟨setting, start, le_trans passed later, anchored, word, pending, unoffered,
    fun due at_due => places due (follows due at_due), fresh⟩

/-- **A command anchors the timeline** no further back, neither past the pending due time nor past
what was played. -/
theorem PacerInv.apply_spec (pending : session.pacer.timeline.anchorReplay ≤ due)
    (command : PlaybackCommand) (later : pass.reading ≤ now) (latest : now ≤ lastReadable) :
    ∃ position, session.pacer.timeline.anchorReplay ≤ position ∧ position ≤ due ∧
      position ≤ maxTimestamp ∧ (position : ℚ) ≤ pass.played now ∧
      session.pacer.apply command due now = .ok { session.pacer with
        paused := (pass.setting.obey now command).paused
        timeline := ⟨now, position, (pass.setting.obey now command).rate⟩ } := by
  have since := le_trans inv.passed later
  have anchored := inv.anchored
  rw [inv.played_eq, inv.setting]
  rcases paused : session.pacer.paused with _ | _
  · -- the anchor moves to the position, unless the due time is before it
    obtain ⟨position, exact_position, ahead, word, reached⟩ := position_spec inv.start since
      (readable_of_le (le_trans inv.start since) latest) inv.word
    refine ⟨min due position, le_min pending ahead, min_le_left _ _,
      le_trans (min_le_right _ _) word, ?_, ?_⟩
    · have below : ((min due position : ℕ) : ℚ) ≤ position := Nat.cast_le.mpr (min_le_right _ _)
      rw [Setting.plays, if_neg Bool.false_ne_true]
      linarith
    · unfold PlaybackPacer.apply
      rw [paused, if_neg Bool.false_ne_true, exact_position]
      cases command <;> rfl
  · refine ⟨_, Nat.le_refl _, pending, inv.word, ?_, ?_⟩
    · rw [Setting.plays, if_pos rfl, zero_add]
      exact anchored
    · unfold PlaybackPacer.apply
      rw [paused, if_pos rfl]
      cases command <;> rfl

/-- What a handled command leaves keeps the invariant. -/
theorem PacerInv.anchor (command : PlaybackCommand) (later : pass.reading ≤ now)
    {position : MonotonicTimestamp} (interruption : PlaybackInterruption) {place : PacerPlace} (word : position ≤ maxTimestamp)
    (pending : ∀ due ∈ pass.offered.head?, position ≤ due)
    (unoffered : pass.offered = [] → position = 0) (reached : (position : ℚ) ≤ pass.played now)
    (follows : place.Follows session.place) :
    PacerInv ⟨now, pass.setting.obey now command, pass.setting :: pass.older, pass.offered⟩
      ⟨⟨⟨now, position, (pass.setting.obey now command).rate⟩,
        (pass.setting.obey now command).paused, interruption⟩, place⟩ where
  setting := by cases command <;> rfl
  start := le_trans inv.start (le_trans inv.passed later)
  passed := le_refl now
  anchored := reached
  word := word
  pending := pending
  unoffered := unoffered
  place := fun due at_due => inv.place due (follows due at_due)
  fresh := nofun

/-- What a poll leaves: the invariant, and an anchor that is no further back. A due time bounds
the anchor when it is pending, and none is needed when the anchor itself is given. -/
theorem PacerInv.handle_spec
    (bound : pass.offered.head? = some due ∨ due = session.pacer.timeline.anchorReplay)
    (answer : PlaybackPoll) (later : pass.reading ≤ now) (latest : now ≤ lastReadable) :
    ∃ handling pacer, session.pacer.handle answer due now = .ok (handling, pacer) ∧
      session.pacer.timeline.anchorReplay ≤ pacer.timeline.anchorReplay ∧
      ∀ place : PacerPlace, place.Follows session.place →
        PacerInv (pass.take (.poll answer now)) ⟨pacer, place⟩ := by
  have pending : session.pacer.timeline.anchorReplay ≤ due :=
    bound.elim (inv.pending due) (fun same => same ▸ Nat.le_refl _)
  rcases answer with _ | command | _
  · exact ⟨_, _, rfl, Nat.le_refl _, fun _ => inv.moved later rfl rfl⟩
  · obtain ⟨position, ahead, behind, word, reached, applied⟩ :=
      inv.apply_spec pending command later latest
    have anchored (place : PacerPlace) (follows : place.Follows session.place) :=
      inv.anchor command later session.pacer.interruption word
        (fun last offered => ?_) (fun empty => ?_) reached follows
    · rcases command with _ | _ | _ | rate
      case restart => exact ⟨_, _, rfl, Nat.le_refl _, fun _ => inv.moved later rfl rfl⟩
      all_goals
        refine ⟨.applied, _, ?_, ahead, anchored⟩
        rw [PlaybackPacer.handle, applied]
        · rfl
        · nofun
    · -- the due time that is pending bounds the new anchor
      rcases bound with last_due | same
      · obtain rfl := Option.some.inj (offered.symm.trans last_due)
        exact behind
      · exact Nat.le_trans (same ▸ behind) (inv.pending last offered)
    · rcases bound with last_due | same
      · rw [empty] at last_due
        exact nomatch last_due
      · exact Nat.le_zero.mp (inv.unoffered empty ▸ same ▸ behind)
  · exact ⟨_, _, rfl, Nat.le_refl _, fun _ => inv.moved later rfl rfl⟩

/-- **A check releases the pending step exactly if** the pacer is not paused and the timeline has
reached its due time. -/
theorem PacerInv.checkDue_spec (due : MonotonicTimestamp)
    (later : pass.reading ≤ now) (latest : now ≤ lastReadable) :
    ∃ place out, session.checkDue due now = .ok ({ session with place }, out) ∧
      place ≠ .checking due ∧ (∀ other, place = .draining other → other = due) ∧
      (∀ other, place ≠ .checking other) ∧ out ≠ .fault ∧
      (out = .released ↔ session.pacer.paused = false ∧
        (due : ℚ) ≤ session.pacer.timeline.anchorReplay +
          session.pacer.timeline.rate.value * (now - session.pacer.timeline.anchorWall : ℤ)) := by
  have since := le_trans inv.passed later
  have readable := readable_of_le (le_trans inv.start since) latest
  unfold PlaybackSession.checkDue
  rcases paused : session.pacer.paused with _ | _
  · obtain ⟨target, exact_target, reached⟩ :=
      wallTarget_le_iff due inv.start since readable
    rw [if_neg Bool.false_ne_true, exact_target, ok_bind, ← reached]
    by_cases come : target ≤ now
    · rw [if_pos come]
      exact ⟨_, _, rfl, nofun, nofun, nofun, nofun, fun _ => ⟨rfl, come⟩, fun _ => rfl⟩
    · rw [if_neg come, readable.signed]
      exact ⟨_, _, rfl, nofun, fun _ same => by cases same; rfl, nofun, nofun, nofun,
        fun held => absurd held.2 come⟩
  · rw [if_pos rfl, readable.signed]
    exact ⟨_, _, rfl, nofun, fun _ same => by cases same; rfl, nofun, nofun, nofun,
      fun held => nomatch held.1⟩

omit inv

/-- The result of checked arithmetic that stayed in its type. -/
theorem settle_ok {next} (ok : result = .ok next) : session.settle result = next := by
  rw [ok]
  rfl

/-- What an input may have for its output when it is taken. -/
theorem settle_ne_ignored (taken : ∀ next, result = .ok next → next.2 ≠ .ignored) :
    (session.settle result).2 ≠ .ignored := by
  rcases result with _ | next
  · nofun
  · exact taken next rfl

theorem drain_taken (due : MonotonicTimestamp) (answer : PlaybackPoll) (now : ℤ) :
    (session.settle (session.drain due answer now)).2 ≠ .ignored := by
  apply settle_ne_ignored
  unfold PlaybackSession.drain
  rcases session.pacer.handle answer due now with failure | ⟨handling, pacer⟩
  · exact fun _ ok => nomatch ok
  · rintro next ⟨⟩
    cases handling <;> nofun

theorem awaitPoll_taken (answer : PlaybackPoll) (now : ℤ) :
    (session.settle (session.awaitPoll answer now)).2 ≠ .ignored := by
  apply settle_ne_ignored
  unfold PlaybackSession.awaitPoll
  rcases session.pacer.handle answer session.pacer.timeline.anchorReplay now with
    failure | ⟨handling, pacer⟩
  · exact fun _ ok => nomatch ok
  rw [ok_bind]
  rcases handling with _ | _ | _
  · rcases signed 64 (now + kPlaybackCommandSlice) with failure | deadline
    · exact fun _ ok => nomatch ok
    · rintro next ⟨⟩
      nofun
  all_goals
    rintro next ⟨⟩
    nofun

theorem checkDue_taken (due : MonotonicTimestamp) (now : ℤ) :
    (session.settle (session.checkDue due now)).2 ≠ .ignored := by
  have slept (place : PacerPlace) (deadline : ℤ → ℤ) :
      ∀ next, (do
        let slice ← signed 64 (now + kPlaybackCommandSlice)
        pure ({ session with place }, PacerOutput.sleeps (deadline slice))) = Except.ok next →
      next.2 ≠ .ignored := by
    rcases signed 64 (now + kPlaybackCommandSlice) with failure | slice
    · exact fun _ ok => nomatch ok
    · rintro next ⟨⟩
      nofun
  apply settle_ne_ignored
  unfold PlaybackSession.checkDue
  split
  · exact slept _ id
  rcases session.pacer.timeline.wallTarget due with failure | target
  · exact fun _ ok => nomatch ok
  rw [ok_bind]
  split
  · rintro next ⟨⟩
    nofun
  · exact slept _ (min target)

/-- What a step keeps: the invariant and, apart from a new pass, an anchor no further back. No
operation leaves its type. -/
structure Kept (pass : Pass) (session : PlaybackSession) (input : PacerInput)
    (next : PlaybackSession × PacerOutput) : Prop where
  inv : PacerInv (pass.next (input, next.2)) next.1
  no_fault : next.2 ≠ .fault
  ahead : (∀ now, input ≠ .beginReplay now) →
    session.pacer.timeline.anchorReplay ≤ next.1.pacer.timeline.anchorReplay

include inv

theorem PacerInv.ignored (input : PacerInput) :
    Kept pass session input (session, .ignored) where
  inv := by
    rw [Pass.next, if_pos rfl]
    exact inv
  no_fault := nofun
  ahead := fun _ => Nat.le_refl _

/-- A poll while an admission drains the channel. -/
theorem PacerInv.drain (place : session.place = .draining due) (answer : PlaybackPoll)
    (later : pass.reading ≤ now) (latest : now ≤ lastReadable) :
    Kept pass session (.poll answer now) (session.settle (session.drain due answer now)) := by
  obtain ⟨handling, pacer, handled, ahead, kept⟩ :=
    inv.handle_spec (.inl (inv.place due (.inl place))) answer later latest
  have same (at_due : PacerPlace) (follows : at_due = .draining due ∨ at_due = .checking due) :
      at_due.Follows session.place := by
    rintro other (rfl | rfl)
    · exact .inl (place.trans (follows.elim (fun h => by cases h; rfl) nofun))
    · exact .inl (place.trans (follows.elim nofun fun h => by cases h; rfl))
  rw [PlaybackSession.drain, handled, ok_bind]
  rcases handling with _ | _ | _
  · exact ⟨kept _ (same _ (.inr rfl)), nofun, fun _ => ahead⟩
  · exact ⟨kept _ (same _ (.inl rfl)), nofun, fun _ => ahead⟩
  · exact ⟨kept _ (fun _ h => h.elim nofun nofun), nofun, fun _ => ahead⟩

/-- A poll of `await_restart`. -/
theorem PacerInv.awaitPoll (answer : PlaybackPoll)
    (later : pass.reading ≤ now) (latest : now ≤ lastReadable) :
    Kept pass session (.poll answer now) (session.settle (session.awaitPoll answer now)) := by
  obtain ⟨handling, pacer, handled, ahead, kept⟩ :=
    inv.handle_spec (.inr rfl) answer later latest
  have readable := readable_of_le (le_trans inv.start (le_trans inv.passed later)) latest
  have out (place : PacerPlace) (off : place = .idle ∨ place = .awaiting) :
      place.Follows session.place := by
    rintro due (rfl | rfl) <;> exact off.elim nofun nofun
  rw [PlaybackSession.awaitPoll, handled, ok_bind]
  rcases handling with _ | _ | _
  · rw [readable.signed]
    exact ⟨kept _ (out _ (.inr rfl)), nofun, fun _ => ahead⟩
  · exact ⟨kept _ (out _ (.inr rfl)), nofun, fun _ => ahead⟩
  · exact ⟨kept _ (out _ (.inl rfl)), nofun, fun _ => ahead⟩

/-- A check of an admission. -/
theorem PacerInv.checkDue (place : session.place = .checking due)
    (later : pass.reading ≤ now) (latest : now ≤ lastReadable) :
    Kept pass session (.check now) (session.settle (session.checkDue due now)) := by
  obtain ⟨after, out, checked, -, draining, leaves, no_fault, -⟩ :=
    inv.checkDue_spec due later latest
  have taken : (session.settle (session.checkDue due now)).2 ≠ .ignored := checkDue_taken due now
  rw [settle_ok checked] at taken ⊢
  refine ⟨?_, no_fault, fun _ => Nat.le_refl _⟩
  rw [Pass.next, if_neg taken]
  refine inv.moved later rfl rfl ?_
  rintro other (rfl | rfl)
  · exact .inr (draining other rfl ▸ place)
  · exact absurd rfl (leaves other)

/-- **A step keeps the invariant.** -/
theorem pacer_step (input : PacerInput)
    (admits : (session.step input).2 ≠ .ignored → pass.Admits lastReadable input) :
    Kept pass session input (session.step input) := by
  rcases place : session.place with _ | due | due | _ <;> cases input <;>
    simp only [step, place] at admits ⊢
  -- No call is running: a new pass begins, a due time is offered, or a restart is awaited.
  case idle.beginReplay now =>
    exact ⟨inv.begun (admits nofun).1, nofun, fun other => absurd rfl (other now)⟩
  case idle.admitAt due =>
    exact ⟨inv.offered (admits nofun).2, nofun, fun _ => Nat.le_refl _⟩
  case idle.awaitRestart =>
    exact ⟨inv.moved (le_refl _) rfl rfl (fun _ h => h.elim nofun nofun), nofun,
      fun _ => Nat.le_refl _⟩
  case draining.poll answer now =>
    obtain ⟨later, latest⟩ := admits (drain_taken due answer now)
    exact inv.drain place answer later latest
  case checking.check now =>
    obtain ⟨later, latest⟩ := admits (checkDue_taken due now)
    exact inv.checkDue place later latest
  case awaiting.poll answer now =>
    obtain ⟨later, latest⟩ := admits (awaitPoll_taken answer now)
    exact inv.awaitPoll answer later latest
  all_goals exact inv.ignored _

/-- A check after the channel was drained, of the due time that is pending. -/
theorem PacerInv.released_iff (place : session.place = .checking due)
    (later : pass.reading ≤ now) (latest : now ≤ lastReadable) :
    (session.step (.check now)).2 = .released ↔ session.pacer.paused = false ∧
      (due : ℚ) ≤ session.pacer.timeline.anchorReplay +
        session.pacer.timeline.rate.value * (now - session.pacer.timeline.anchorWall : ℤ) := by
  obtain ⟨after, out, checked, -, -, -, -, released⟩ := inv.checkDue_spec due later latest
  simp only [step, place, settle_ok checked]
  exact released

/-- What the timeline has reached was played, unless it is paused. -/
theorem PacerInv.reached_le (running : session.pacer.paused = false) (now : ℤ) :
    (session.pacer.timeline.anchorReplay : ℚ) +
      session.pacer.timeline.rate.value * (now - session.pacer.timeline.anchorWall : ℤ) ≤
        pass.played now := by
  rw [inv.played_eq, inv.setting, Setting.plays, running, if_neg Bool.false_ne_true, add_comm]
  exact (add_le_add_iff_left _).mpr inv.anchored

/-- Before the first command the timeline has reached all that was played. -/
theorem PacerInv.reached_eq (fresh : pass.older = []) (now : ℤ) :
    (session.pacer.timeline.anchorReplay : ℚ) +
      session.pacer.timeline.rate.value * (now - session.pacer.timeline.anchorWall : ℤ) =
        pass.played now := by
  obtain ⟨zero, running⟩ := inv.fresh fresh
  rw [inv.played_eq, inv.setting, Setting.plays, running, if_neg Bool.false_ne_true, fresh, played,
    zero, Nat.cast_zero, zero_add, add_zero]

omit inv

/-- Only a check of a pending due time releases a step. -/
theorem released_check {input : PacerInput} (released : (session.step input).2 = .released) :
    ∃ due now, session.place = .checking due ∧ input = .check now := by
  have drained (due answer now) :
      (session.settle (session.drain due answer now)).2 ≠ .released := by
    unfold PlaybackSession.drain
    rcases session.pacer.handle answer due now with failure | ⟨handling, pacer⟩
    · nofun
    · cases handling <;> nofun
  have awaited (answer now) : (session.settle (session.awaitPoll answer now)).2 ≠ .released := by
    unfold PlaybackSession.awaitPoll
    rcases session.pacer.handle answer session.pacer.timeline.anchorReplay now with
      failure | ⟨handling, pacer⟩
    · nofun
    rw [ok_bind]
    rcases handling with _ | _ | _
    · rcases signed 64 (now + kPlaybackCommandSlice) with failure | deadline <;> nofun
    all_goals nofun
  rcases place : session.place with _ | due | due | _ <;> cases input <;>
    simp only [step, place] at released
  case draining.poll => exact absurd released (drained _ _ _)
  case awaiting.poll => exact absurd released (awaited _ _)
  case checking.check now => exact ⟨due, now, rfl, rfl⟩
  all_goals exact nomatch released

end Steps

/-! ### Runs -/

/-- What is seen of a pass after a trace. -/
def passOf (pass : Pass) (trace : List (PacerInput × PacerOutput)) : Pass :=
  trace.foldl Pass.next pass

theorem paced_append {latest : ℤ} {inputs rest : List PacerInput} :
    Paced latest session pass (inputs ++ rest) ↔ Paced latest session pass inputs ∧
      Paced latest (after step session inputs)
        (passOf pass (trace step session inputs)) rest := by
  induction inputs generalizing session pass with
  | nil => exact (iff_of_eq (true_and _)).symm
  | cons input inputs ih =>
    rw [List.cons_append, Paced, Paced, ih, and_assoc]
    rfl

/-- **What holds between the pacer and its pass holds after every run.** -/
theorem pacer_run (inv : PacerInv pass session) {inputs : List PacerInput}
    (paced : Paced lastReadable session pass inputs) :
    PacerInv (passOf pass (trace step session inputs))
      (after step session inputs) := by
  induction inputs generalizing session pass with
  | nil => exact inv
  | cons input inputs ih => exact ih (pacer_step inv input paced.1).inv paced.2

/-- A pacer that was just created has played nothing. -/
theorem pacer_start {start : ℤ} (positive : 0 ≤ start) :
    PacerInv (Pass.create start) (PlaybackSession.create start) where
  setting := rfl
  start := positive
  passed := le_refl start
  anchored := le_of_eq Nat.cast_zero
  word := Nat.zero_le _
  pending := fun _ offered => nomatch offered
  unoffered := fun _ => rfl
  place := fun _ place => place.elim nofun nofun
  fresh := fun _ => ⟨rfl, rfl⟩

/-- **What a pacer does** on an input, after the pass that is seen. -/
structure Paces (pass : Pass) (session : PlaybackSession) (input : PacerInput) : Prop where
  no_fault : (session.step input).2 ≠ .fault
  ahead : (∀ now, input ≠ .beginReplay now) → session.pacer.timeline.anchorReplay ≤
    (session.step input).1.pacer.timeline.anchorReplay
  /-- The due time of a call is the last one that was offered. The anchor does not pass it. -/
  pending : ∀ due, session.place = .draining due ∨ session.place = .checking due →
    pass.offered.head? = some due ∧ session.pacer.timeline.anchorReplay ≤ due
  /-- A step is released while the playback runs, and once enough was played. -/
  released : (session.step input).2 = .released → ∃ due now, session.place = .checking due ∧
    input = .check now ∧ pass.setting.paused = false ∧ (due : ℚ) ≤ pass.played now
  /-- Without a command in the pass, every check at which enough was played releases. -/
  prompt : ∀ due now, session.place = .checking due → input = .check now → pass.older = [] →
    ((session.step input).2 = .released ↔ (due : ℚ) ≤ pass.played now)
  /-- After commands the stretch since the last one counts from the anchor. -/
  anchored : ∀ due now, session.place = .checking due → input = .check now →
    ((session.step input).2 = .released ↔ pass.setting.paused = false ∧
      (due : ℚ) ≤ session.pacer.timeline.anchorReplay + pass.setting.plays now)

/-- A pacer paces after every run. -/
theorem paces (inv : PacerInv pass session) {input : PacerInput}
    (admits : (session.step input).2 ≠ .ignored → pass.Admits lastReadable input) :
    Paces pass session input := by
  obtain ⟨-, no_fault, ahead⟩ := pacer_step inv input admits
  have check (due now) (place : session.place = .checking due) (same : input = .check now) :
      (session.step input).2 = .released ↔ session.pacer.paused = false ∧
        (due : ℚ) ≤ session.pacer.timeline.anchorReplay +
          session.pacer.timeline.rate.value * (now - session.pacer.timeline.anchorWall : ℤ) := by
    subst same
    obtain ⟨later, latest⟩ := admits (by
      simp only [step, place]
      exact checkDue_taken due now)
    exact inv.released_iff place later latest
  refine ⟨no_fault, ahead, ?_, ?_, ?_, ?_⟩
  · intro due place
    have offered := inv.place due place
    exact ⟨offered, inv.pending due offered⟩
  · intro released
    obtain ⟨due, now, place, same⟩ := released_check released
    obtain ⟨running, reached⟩ := (check due now place same).mp released
    refine ⟨due, now, place, same, ?_, le_trans reached (inv.reached_le running now)⟩
    rw [inv.setting]
    exact running
  · intro due now place same fresh
    rw [check due now place same, inv.reached_eq fresh]
    exact ⟨fun held => held.2, fun reached => ⟨(inv.fresh fresh).2, reached⟩⟩
  · intro due now place same
    rw [check due now place same, inv.setting]
    refine and_congr_right fun running => ?_
    rw [Setting.plays, running, if_neg Bool.false_ne_true]

end AccessoryController.Replay
