import AccessoryController.Library.Machine

/-!
# Reading frames from a stream

A reader of frames looks at the bytes that have come so far: it needs more of them, takes one
frame off their front, or takes the last frame of the connection. Where what it takes does not
depend on the bytes behind it, the frames of a stream do not depend on how the stream comes in
chunks, nor on when the reader is asked.

## Main definitions

* `Reader β F`: a reader of frames of type `F` from bytes of type `β`
* `Reader.read`: the frames of a whole stream, with what is left of it
* `Reader.step`: the reader as a machine over chunks and requests

## Main results

* `Reader.read_after`: a run reads the stream of its chunks
* `Reader.closed`: a connection that ended stays so
-/

namespace Framing

variable {β F : Type*}

/-- What a reader takes off the front of a stream. -/
inductive Taken (β F : Type*)
  | more
  | frame (frame : F) (rest : List β)
  | last (frame : F)

/-- A reader that takes something off every frame, whatever comes behind it. -/
structure Reader (β F : Type*) where
  take : List β → Taken β F
  shorter : ∀ {bytes frame rest}, take bytes = .frame frame rest → rest.length < bytes.length
  frame_append : ∀ {bytes frame rest} (behind), take bytes = .frame frame rest →
    take (bytes ++ behind) = .frame frame (rest ++ behind)
  last_append : ∀ {bytes frame} (behind), take bytes = .last frame →
    take (bytes ++ behind) = .last frame

namespace Reader

/-- The frames of a stream, and what is left of it unless the connection ended. -/
def read (reader : Reader β F) (bytes : List β) : List F × Option (List β) :=
  match _taken : reader.take bytes with
  | .more => ([], some bytes)
  | .frame frame rest => (frame :: (reader.read rest).1, (reader.read rest).2)
  | .last frame => ([frame], none)
termination_by bytes.length
decreasing_by all_goals exact reader.shorter _taken

variable {reader : Reader β F} {bytes behind rest : List β} {frame : F}

theorem read_of_more
    (taken : reader.take bytes = .more) : reader.read bytes = ([], some bytes) := by
  rw [read]
  split <;> simp_all

theorem read_of_frame (taken : reader.take bytes = .frame frame rest) :
    reader.read bytes = (frame :: (reader.read rest).1, (reader.read rest).2) := by
  rw [read]
  split <;> simp_all

theorem read_of_last (taken : reader.take bytes = .last frame) :
    reader.read bytes = ([frame], none) := by
  rw [read]
  split <;> simp_all

/-- Reading on, from what is left of a stream. -/
def readOn (reader : Reader β F) : Option (List β) → List F × Option (List β)
  | none => ([], none)
  | some bytes => reader.read bytes

/-! ### The reader as a machine -/

/-- A chunk comes in, or the next frame is asked for. -/
inductive Call (β : Type*)
  | append (bytes : List β)
  | next

variable (reader) in
/-- The reader with the bytes that it holds; none once the connection ended. -/
def step : Option (List β) → Call β → Option (List β) × Option F
  | none, _ => (none, none)
  | some held, .append bytes => (some (held ++ bytes), none)
  | some held, .next =>
    match reader.take held with
    | .more => (some held, none)
    | .frame frame rest => (some rest, some frame)
    | .last frame => (none, some frame)

/-- The bytes that came in. -/
def appended (calls : List (Call β)) : List β :=
  calls.flatMap fun
    | .append bytes => bytes
    | .next => []

/-- The frames that were answered. -/
def yielded (trace : List (Call β × Option F)) : List F := trace.filterMap Prod.snd

/-- What one call takes over from the stream to the answers. -/
theorem readOn_step (held : Option (List β)) (call : Call β) (behind : List β) :
    reader.readOn (held.map (· ++ (appended [call] ++ behind))) =
      ((reader.step held call).2.toList ++
          (reader.readOn ((reader.step held call).1.map (· ++ behind))).1,
        (reader.readOn ((reader.step held call).1.map (· ++ behind))).2) := by
  cases held with
  | none => rfl
  | some held =>
    cases call with
    | append bytes => simp [appended, step, readOn]
    | next =>
      cases taken : reader.take held with
      | more => simp [appended, step, taken, readOn]
      | frame frame rest =>
        simp only [appended, step, taken, readOn, Option.map_some, List.flatMap_cons,
          List.flatMap_nil, List.append_nil, List.nil_append]
        rw [read_of_frame (reader.frame_append behind taken)]
        rfl
      | last frame =>
        simp only [appended, step, taken, readOn, Option.map_some, List.flatMap_cons,
          List.flatMap_nil, List.append_nil, List.nil_append]
        rw [read_of_last (reader.last_append behind taken)]
        rfl

/-- **A run reads the stream of its chunks**: the frames it answered, then those that a reader
would answer from now on, are the frames of the stream. -/
theorem read_after (calls : List (Call β)) (held : Option (List β)) :
    (yielded (Machine.trace reader.step held calls) ++
        (reader.readOn (Machine.after reader.step held calls)).1,
      (reader.readOn (Machine.after reader.step held calls)).2) =
    reader.readOn (held.map (· ++ appended calls)) := by
  induction calls generalizing held with
  | nil =>
    cases held <;> simp [Machine.trace, Machine.after, yielded, appended, readOn]
  | cons call calls ih =>
    have split : appended (call :: calls) = appended [call] ++ appended calls := by
      simp [appended]
    rw [split, readOn_step, ← ih]
    have trace : yielded (Machine.trace reader.step held (call :: calls)) =
        (reader.step held call).2.toList ++
          yielded (Machine.trace reader.step (reader.step held call).1 calls) := by
      rw [Machine.trace, yielded, List.filterMap_cons]
      cases (reader.step held call).2 <;> rfl
    rw [trace, List.append_assoc]
    rfl

/-- A connection that ended stays so, and answers nothing more. -/
theorem closed (calls : List (Call β)) : Machine.after reader.step none calls = none ∧
    yielded (Machine.trace reader.step none calls) = [] := by
  induction calls with
  | nil => exact ⟨rfl, rfl⟩
  | cons call calls ih => exact ih

end Reader

end Framing
