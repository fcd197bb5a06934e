import AccessoryController.Library.Threads
import AccessoryController.LocalArgb.Frame

/-!
# The stall gate

Publishers reach the renderer's queue through a gate, which a stalled loop closes and a restart
shuts for good. The gate is one atomic state, one epoch and one count of the publishers inside;
each call is a sequence of sequentially consistent steps on these and on the queue behind.

## Main definitions

* `Gate`: what the threads share
* `Place`: the atomic step that a thread takes next
* `act`: its effect, with the answer of the sink where one is asked
-/

namespace AccessoryController.LocalArgb

inductive GateState
  | opened
  | closed
  | shut
  deriving DecidableEq, Repr

/-- A command that reached the downstream sink, through the gate or past it. -/
structure Delivery where
  gated : Bool
  command : LightingCommand

/-- What the threads share. The count of publishers is 32 bits wide, more than the stacks that a
32-bit machine has room for; the epoch wraps. -/
structure Gate where
  state : GateState := .opened
  inFlight : ℕ := 0
  epoch : UInt32 := 0
  delivered : List Delivery := []

namespace Gate

variable (g : Gate)

def invalidateTransients : Gate := { g with epoch := g.epoch + 1 }

/-- The closing exchange: only an open gate closes. -/
def exchangeClosed : Gate := if g.state = .opened then { g with state := .closed } else g

/-- The opening exchange: a gate that is shut stays shut. -/
def exchangeOpened : Gate := if g.state = .closed then { g with state := .opened } else g

def storeShut : Gate := { g with state := .shut }

/-- The downstream sink is handed a command. -/
def deliver (gated : Bool) (command : LightingCommand) : Gate :=
  { g with delivered := g.delivered ++ [⟨gated, command⟩] }

def lastCommand : Option LightingCommand := g.delivered.getLast?.map Delivery.command

end Gate

/-- A call that a thread may make. -/
inductive Call
  /-- `StallGatedSink::publish` -/
  | publish (command : LightingCommand)
  /-- `ProgressFailOff::fail_off`: close, then black past the gate -/
  | stalled
  /-- `ProgressFailOff::resume` -/
  | resumed
  /-- `RendererRuntime::fail_off`: a new epoch, then black past the gate -/
  | failOff
  /-- a faulted worker pass: a new epoch -/
  | faulted
  /-- `StallGatedSink::shut` -/
  | shut
  /-- `fail_off_for_restart`: shut, wait for the publishers, then black past the gate -/
  | failOffForRestart

/-- The atomic step that a thread takes next. -/
inductive Place
  | idle
  | enter (command : LightingCommand)
  | capture (command : LightingCommand)
  | check (command : LightingCommand) (epoch : UInt32)
  | hand (command : LightingCommand) (epoch : UInt32)
  | recheck (accepted : Bool) (epoch : UInt32)
  | compare (accepted : Bool) (epoch : UInt32)
  | blacken
  | leave (result : Bool)
  | close
  | closeEpoch
  | closeBlack
  | openEpoch
  | openGate
  | failOffEpoch
  | failOffBlack
  | faultEpoch
  | shutGate (restart : Bool)
  | shutEpoch (restart : Bool)
  | await

def Call.place : Call → Place
  | .publish command => .enter command
  | .stalled => .close
  | .resumed => .openEpoch
  | .failOff => .failOffEpoch
  | .faulted => .faultEpoch
  | .shut => .shutGate false
  | .failOffForRestart => .shutGate true

/-- What a step leaves open: the call that an idle thread makes, or the answer that a busy one
gets (of the sink, or of the clock while it waits). -/
inductive Choice
  | call (call : Call)
  | answer (yes : Bool)

/-- The next atomic step of a thread. -/
def act (g : Gate) : Place → Choice → Gate × Place
  | .idle, .call call => (g, call.place)
  | .idle, .answer _ => (g, .idle)
  | .enter command, _ => ({ g with inFlight := g.inFlight + 1 }, .capture command)
  | .capture command, _ => (g, .check command g.epoch)
  | .check command epoch, _ =>
    (g, if g.state = .opened then .hand command epoch else .leave false)
  | .hand command epoch, .answer accepted => (g.deliver true command, .recheck accepted epoch)
  | .hand command epoch, .call _ => (g, .hand command epoch)
  | .recheck accepted epoch, _ =>
    (g, if g.state = .opened then .compare accepted epoch else .blacken)
  | .compare accepted epoch, _ => (g, if epoch = g.epoch then .leave accepted else .blacken)
  | .blacken, _ => (g.deliver true {}, .leave false)
  | .leave _, _ => ({ g with inFlight := g.inFlight - 1 }, .idle)
  | .close, _ => (g.exchangeClosed, .closeEpoch)
  | .closeEpoch, _ => (g.invalidateTransients, .closeBlack)
  | .closeBlack, _ => (g.deliver false {}, .idle)
  | .openEpoch, _ => (g.invalidateTransients, .openGate)
  | .openGate, _ => (g.exchangeOpened, .idle)
  | .failOffEpoch, _ => (g.invalidateTransients, .failOffBlack)
  | .failOffBlack, _ => (g.deliver false {}, .idle)
  | .faultEpoch, _ => (g.invalidateTransients, .idle)
  | .shutGate restart, _ => (g.storeShut, .shutEpoch restart)
  | .shutEpoch restart, _ => (g.invalidateTransients, if restart then .await else .idle)
  | .await, .answer expired =>
    (g, if g.inFlight = 0 then .failOffBlack else if expired then .idle else .await)
  | .await, .call _ => (g, .await)

/-- The places between the two updates of the publisher count. -/
def Place.InFlight : Place → Prop
  | .capture _ | .check .. | .hand .. | .recheck .. | .compare .. | .blacken | .leave _ => True
  | _ => False

section

attribute [local simp] act

end

end AccessoryController.LocalArgb
