import Switchyard.Client.Connection
import Switchyard.Client.Scheduler

/-! # Connections that share a scheduler

Any number of connections whose timers run on one scheduler. Every timer is a task of its own. It ends some
time after its message has been completed, its own time is over or the scheduler has been stopped, and other
things can happen before it does. A timer whose time is over may still fire when it has another reason to
end.
-/
namespace Switchyard.Client
open Net
set_option autoImplicit false

/-- A timer that comes to a stopped scheduler has yet to find out. -/
def Scheduler.spawn {κ : Type} (s : Scheduler κ) (key : κ) (timeout : Duration) : Scheduler κ :=
  { s with timers := s.timers ++ [⟨key, s.now + timeout.nanoseconds⟩] }

/-- The message that the task takes up when it next goes on by itself. -/
def Connection.taken? {γ : Type} (c : Connection γ) : Option Nat :=
  match c.next with
  | .take k _ => some k
  | _ => none

/-- A key has the position of a connection and that of a message on it. -/
structure Fleet (γ : Type) where
  codec : Codec γ
  connections : List (Connection γ)
  scheduler : Scheduler (Nat × Nat)

namespace Fleet
variable {γ : Type}

def new (codec : Codec γ) : Fleet γ := { codec, connections := [], scheduler := .empty }

def message? (f : Fleet γ) (key : Nat × Nat) : Option Message :=
  (f.connections[key.1]?).bind (·.messages[key.2]?)

def expectsReply (f : Fleet γ) (key : Nat × Nat) : Bool := (f.message? key).any (·.expectsResponse)

def isCompleted (f : Fleet γ) (key : Nat × Nat) : Bool := (f.message? key).any (·.isCompleted)

def allEnded (f : Fleet γ) : Bool := f.connections.all (·.hasEnded)

/-- Whether a timer has no more need to run. -/
def mayLapse (f : Fleet γ) (key : Nat × Nat) : Bool := f.scheduler.stopped || f.isCompleted key

def mayFire (f : Fleet γ) (key : Nat × Nat) : Bool :=
  f.scheduler.timers.any fun timer => timer.key = key && f.scheduler.isDue timer

/-- Whether all timers have run as far as they can. -/
def isAtRest (f : Fleet γ) : Bool :=
  f.scheduler.timers.all fun timer => !f.mayLapse timer.key && !f.scheduler.isDue timer

/-- Whether a shutdown of the scheduler that waits for the timers can return. -/
def hasShutDown (f : Fleet γ) : Bool := f.scheduler.stopped && f.scheduler.timers.isEmpty

inductive Event (γ : Type) where
  | opened (cancelled : Bool) (fresh : γ)
  | on (connection : Nat) (event : ConnectionEvent)
  | elapse (time : Duration)
  | fire (key : Nat × Nat)
  | lapse (key : Nat × Nat)
  | stop

def opened (f : Fleet γ) (cancelled : Bool) (fresh : γ) : Fleet γ :=
  { f with connections := f.connections ++ [.new ⟨f.connections.length + 1⟩ cancelled fresh] }

def onConnection (f : Fleet γ) (i : Nat) (event : ConnectionEvent) : Fleet γ :=
  { f with connections := f.connections.modify i (·.step f.codec event) }

/-- A timer starts before the message it belongs to is written. -/
def startTimer (f : Fleet γ) (i : Nat) (event : ConnectionEvent) : Fleet γ :=
  match event, (f.connections[i]?).bind (·.timer?) with
  | .turn, some (k, timeout) => { f with scheduler := f.scheduler.spawn (i, k) timeout }
  | _, _ => f

def endTimer (f : Fleet γ) (key : Nat × Nat) : Fleet γ :=
  { f with scheduler := f.scheduler.retain (· != key) }

def step (f : Fleet γ) : Event γ → Fleet γ
  | .opened cancelled fresh => f.opened cancelled fresh
  | .on i event => (f.startTimer i event).onConnection i event
  | .elapse time => { f with scheduler.now := f.scheduler.now + time.nanoseconds }
  | .fire key => if f.mayFire key then (f.onConnection key.1 (.expire key.2)).endTimer key else f
  | .lapse key => if f.mayLapse key then f.endTimer key else f
  | .stop => { f with scheduler.stopped := true }

def run (f : Fleet γ) (events : List (Event γ)) : Fleet γ := events.foldl step f

/-- The message whose writing an event begins. -/
def begun? (f : Fleet γ) : Event γ → Option (Nat × Nat)
  | .on i .turn => ((f.connections[i]?).bind (·.taken?)).map (i, ·)
  | _ => none

/-- The messages whose writing begins in a run, in this order. -/
def begun (f : Fleet γ) : List (Event γ) → List (Nat × Nat)
  | [] => []
  | event :: events => (f.begun? event).toList ++ (f.step event).begun events

end Fleet
end Switchyard.Client
