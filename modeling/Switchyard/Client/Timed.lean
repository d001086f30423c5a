import Switchyard.Client.Connection
import Switchyard.Client.Scheduler

/-! # Connections in time

A connection with the timers of its messages. A timer starts when the task takes its message up, runs
while that message is written and while its reply is due, and ends with the message. A message that
waits for its turn has none.
-/
namespace Switchyard.Client
open Net
set_option autoImplicit false

structure Timed (γ : Type) where
  connection : Connection γ
  scheduler : Scheduler Nat
  metrics : Metrics

inductive TimedEvent where
  | on (event : ConnectionEvent)
  | elapse (time : Duration)
  | stopTimers

namespace Timed
variable {γ : Type}

def new (connection : Connection γ) : Timed γ := { connection, scheduler := .empty, metrics := [] }

/-- A timer starts before the message it belongs to is written. -/
def startTimer (t : Timed γ) (event : ConnectionEvent) : Timed γ :=
  match event, t.connection.timer? with
  | .turn, some (k, timeout) => { t with scheduler := t.scheduler.start k timeout }
  | _, _ => t

def fire (t : Timed γ) (k : Nat) : Timed γ :=
  let (_, connection, metrics) := t.connection.expire k t.metrics
  { t with connection, metrics }

/-- Timers end with their messages. -/
def follow (t : Timed γ) (connection : Connection γ) : Timed γ :=
  { t with connection, scheduler := t.scheduler.retain (!connection.isCompleted ·) }

def on (codec : Codec γ) (t : Timed γ) (event : ConnectionEvent) : Timed γ :=
  (t.startTimer event).follow (t.connection.step codec event)

/-- The timers that are due fire one after the other before anything else happens. -/
def elapse (t : Timed γ) (time : Duration) : Timed γ :=
  let (due, scheduler) := t.scheduler.advance time
  let fired := due.foldl fire { t with scheduler }
  fired.follow fired.connection

def stopTimers (t : Timed γ) : Timed γ := { t with scheduler := t.scheduler.stop }

def step (codec : Codec γ) (t : Timed γ) : TimedEvent → Timed γ
  | .on event => t.on codec event
  | .elapse time => t.elapse time
  | .stopTimers => t.stopTimers

def run (codec : Codec γ) (t : Timed γ) (events : List TimedEvent) : Timed γ :=
  events.foldl (step codec) t

end Timed
end Switchyard.Client
