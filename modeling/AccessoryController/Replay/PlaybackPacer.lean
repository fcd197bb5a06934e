import Mathlib.Algebra.Order.Ring.Unbundled.Rat
import AccessoryController.Library.Checked
import AccessoryController.VehicleCore.Contracts

/-!
# Pacing a playback

The pacer is the gate of a playback: it holds each step of a replay until the wall clock reaches
the time to which the step's replay time is mapped. A timeline maps replay time to wall time from
an anchor at a rate; play, pause and rate commands anchor it anew. The pacer calls the wall clock
and the command channel and reacts to what they answer. A session is a pacer with the call in which
it is, and its steps are these answers, in any order that the calls allow. The arithmetic is
checked: an operation that leaves its type is a fault.

## Main definitions

* `PlaybackRate`: the supported rates, with `wallSpan` and `replaySpan`
* `PlaybackTimeline`: the map from replay time to wall time
* `PlaybackPacer`: the pacer, with `apply` and `handle`
* `PlaybackSession.step`: a call of the pacer, or what it reads next
-/

namespace AccessoryController.Replay

open VehicleCore Checked

/-! ### Rates -/

def kMaxUnsigned : ℕ := 2 ^ 64 - 1

/-- The largest number of microseconds of a duration. -/
def kMaxMicroseconds : ℕ := 2 ^ 63 - 1

/-- `value * multiplier / divisor`, rounded up or down and saturating. -/
def scale (value multiplier divisor : ℕ) (roundUp : Bool) : Checked ℕ := do
  let whole ← quotient value divisor
  let remainder ← remainder value divisor
  let limit ← quotient kMaxUnsigned multiplier
  if limit < whole then pure kMaxUnsigned
  else do
    let whole ← mul 64 whole multiplier
    let part ← mul 64 remainder multiplier
    let fraction ← quotient part divisor
    let rest ← Checked.remainder part divisor
    let fraction ← add 64 fraction (if roundUp && rest ≠ 0 then 1 else 0)
    let room ← sub kMaxUnsigned fraction
    if room < whole then pure kMaxUnsigned else add 64 whole fraction

/-- The supported playback rates. -/
inductive PlaybackRate
  | quarter | half | normal | double | quintuple
  deriving DecidableEq, Repr

namespace PlaybackRate

def numerator : PlaybackRate → ℕ
  | .quarter | .half | .normal => 1
  | .double => 2
  | .quintuple => 5

def denominator : PlaybackRate → ℕ
  | .quarter => 4
  | .half => 2
  | .normal | .double | .quintuple => 1

/-- The wall time that replay time takes, rounded up and saturating. -/
def wallSpan (rate : PlaybackRate) (replayUs : ℕ) : Checked ℕ := do
  let wall ← scale replayUs rate.denominator rate.numerator true
  if kMaxMicroseconds < wall then pure kMaxMicroseconds else pure wall

/-- The replay time played during wall time, rounded down and saturating. -/
def replaySpan (rate : PlaybackRate) (wall : ℤ) : Checked ℕ :=
  if wall ≤ 0 then pure 0 else scale wall.toNat rate.numerator rate.denominator false

end PlaybackRate

/-! ### Timelines -/

/-- Replay time `anchorReplay` plays at wall time `anchorWall`, and later replay time follows at
the rate. -/
structure PlaybackTimeline where
  anchorWall : ℤ
  anchorReplay : MonotonicTimestamp
  rate : PlaybackRate
  deriving DecidableEq, Repr

namespace PlaybackTimeline

variable (timeline : PlaybackTimeline)

def wallTarget (replayTime : MonotonicTimestamp) : Checked ℤ :=
  if replayTime ≤ timeline.anchorReplay then pure timeline.anchorWall
  else do
    let ahead ← sub replayTime timeline.anchorReplay
    let span ← timeline.rate.wallSpan ahead
    let room ← signed 64 (kMaxMicroseconds - timeline.anchorWall)
    if room < span then pure kMaxMicroseconds else signed 64 (timeline.anchorWall + span)

def position (wallNow : ℤ) : Checked MonotonicTimestamp := do
  let elapsed ← signed 64 (wallNow - timeline.anchorWall)
  let played ← timeline.rate.replaySpan elapsed
  let room ← sub maxTimestamp timeline.anchorReplay
  if room < played then pure maxTimestamp else add 64 timeline.anchorReplay played

end PlaybackTimeline

/-! ### Commands -/

inductive PlaybackCommand
  | play | pause | restart | setRate (rate : PlaybackRate)
  deriving DecidableEq, Repr

/-- What the command channel answers. -/
inductive PlaybackPoll
  | idle | command (command : PlaybackCommand) | closed
  deriving DecidableEq, Repr

inductive PlaybackInterruption
  | none | restart | stop
  deriving DecidableEq, Repr

/-- The longest the pacer sleeps before it checks for commands again. -/
def kPlaybackCommandSlice : ℕ := 10000

structure PlaybackState where
  paused : Bool
  rate : PlaybackRate
  deriving DecidableEq, Repr

structure PlaybackPacer where
  timeline : PlaybackTimeline
  paused : Bool := false
  interruption : PlaybackInterruption := .none
  deriving DecidableEq, Repr

inductive Handling
  | idle | applied | interrupted
  deriving DecidableEq, Repr

namespace PlaybackPacer

/-- A new pacer, at the reading of its wall clock. -/
def create (now : ℤ) : PlaybackPacer := { timeline := ⟨now, 0, .normal⟩ }

variable (pacer : PlaybackPacer)

/-- The state that is reported to the channel. -/
def report : PlaybackState := ⟨pacer.paused, pacer.timeline.rate⟩

def beginReplay (now : ℤ) : PlaybackPacer :=
  { pacer with
    paused := false, interruption := .none, timeline := ⟨now, 0, pacer.timeline.rate⟩ }

/-- Anchors the timeline at the current replay position, which never passes the pending due
time. -/
def apply (command : PlaybackCommand) (due : MonotonicTimestamp) (now : ℤ) :
    Checked PlaybackPacer := do
  let position ←
    if pacer.paused then pure pacer.timeline.anchorReplay
    else (min due ·) <$> pacer.timeline.position now
  let (rate, paused) := match command with
    | .setRate rate => (rate, pacer.paused)
    | .pause => (pacer.timeline.rate, true)
    | .play | .restart => (pacer.timeline.rate, false)
  pure { pacer with paused, timeline := ⟨now, position, rate⟩ }

def handle (poll : PlaybackPoll) (due : MonotonicTimestamp) (now : ℤ) :
    Checked (Handling × PlaybackPacer) :=
  match poll with
  | .idle => pure (.idle, pacer)
  | .closed => pure (.interrupted, { pacer with interruption := .stop })
  | .command .restart => pure (.interrupted, { pacer with interruption := .restart })
  | .command command => (fun applied => (.applied, applied)) <$> pacer.apply command due now

end PlaybackPacer

/-! ### Sessions -/

/-- The call in which a pacer is: none, admission while it drains the channel or checks the clock, or
`await_restart`. -/
inductive PacerPlace
  | idle
  | draining (due : MonotonicTimestamp)
  | checking (due : MonotonicTimestamp)
  | awaiting
  deriving DecidableEq, Repr

structure PlaybackSession where
  pacer : PlaybackPacer
  place : PacerPlace := .idle
  deriving DecidableEq, Repr

/-- A call of the pacer, or what it reads in a call. A poll comes with the reading of the clock
that follows it, if any. -/
inductive PacerInput
  | beginReplay (now : ℤ)
  | admitAt (due : MonotonicTimestamp)
  | awaitRestart
  | poll (answer : PlaybackPoll) (now : ℤ)
  | check (now : ℤ)
  deriving DecidableEq, Repr

/-- What becomes of an input: it is not taken in the call, nothing is seen of it, the state is
reported, the call returns, the pacer sleeps, or an operation left its type. -/
inductive PacerOutput
  | ignored
  | none
  | reported (state : PlaybackState)
  | released
  | refused
  | restarts (restart : Bool)
  | sleeps (deadline : ℤ)
  | fault
  deriving DecidableEq, Repr

namespace PlaybackSession

def create (now : ℤ) : PlaybackSession := { pacer := PlaybackPacer.create now }

variable (session : PlaybackSession)

/-- The result of checked arithmetic. -/
def settle (result : Checked (PlaybackSession × PacerOutput)) : PlaybackSession × PacerOutput :=
  match result with
  | .ok next => next
  | .error _ => (session, .fault)

/-- A poll while an admission drains the channel. -/
def drain (due : MonotonicTimestamp) (answer : PlaybackPoll) (now : ℤ) :
    Checked (PlaybackSession × PacerOutput) := do
  let (handling, pacer) ← session.pacer.handle answer due now
  pure <| match handling with
    | .applied => (⟨pacer, .draining due⟩, .reported pacer.report)
    | .interrupted => (⟨pacer, .idle⟩, .refused)
    | .idle => (⟨pacer, .checking due⟩, .none)

/-- A poll of `await_restart`. -/
def awaitPoll (answer : PlaybackPoll) (now : ℤ) : Checked (PlaybackSession × PacerOutput) := do
  let (handling, pacer) ←
    session.pacer.handle answer session.pacer.timeline.anchorReplay now
  match handling with
  | .applied => pure (⟨pacer, .awaiting⟩, .reported pacer.report)
  | .interrupted => pure (⟨pacer, .idle⟩, .restarts (pacer.interruption = .restart))
  | .idle => do
    let deadline ← signed 64 (now + kPlaybackCommandSlice)
    pure (⟨pacer, .awaiting⟩, .sleeps deadline)

/-- The check of an admission after it has drained the channel. -/
def checkDue (due : MonotonicTimestamp) (now : ℤ) : Checked (PlaybackSession × PacerOutput) :=
  if session.pacer.paused then do
    let deadline ← signed 64 (now + kPlaybackCommandSlice)
    pure ({ session with place := .draining due }, .sleeps deadline)
  else do
    let target ← session.pacer.timeline.wallTarget due
    if target ≤ now then pure ({ session with place := .idle }, .released)
    else do
      let slice ← signed 64 (now + kPlaybackCommandSlice)
      pure ({ session with place := .draining due }, .sleeps (min target slice))

/-- One step. -/
def step (input : PacerInput) : PlaybackSession × PacerOutput :=
  match input, session.place with
  | .beginReplay now, .idle =>
    let pacer := session.pacer.beginReplay now
    (⟨pacer, .idle⟩, .reported pacer.report)
  | .admitAt due, .idle => ({ session with place := .draining due }, .none)
  | .awaitRestart, .idle => ({ session with place := .awaiting }, .none)
  | .poll answer now, .draining due => session.settle (session.drain due answer now)
  | .poll answer now, .awaiting => session.settle (session.awaitPoll answer now)
  | .check now, .checking due => session.settle (session.checkDue due now)
  | _, _ => (session, .ignored)

end PlaybackSession

end AccessoryController.Replay
