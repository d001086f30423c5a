import Switchyard.Net.Server

/-! # Connections being served

A server with the tasks that serve the connections it has accepted. A task is begun at some time and calls
the handler. Once that has returned or broken down, the task gives the slot of its connection back and leaves
the tracker, in this order unless it has broken down.
-/
namespace Switchyard.Net
set_option autoImplicit false

/-- How far a task has come. One that is over has its `slot` and its `entry` in the tracker until it lets go
of them. -/
inductive Visit where
  | waiting
  | handling
  | finished (crashed slot entry : Bool)
deriving DecidableEq, Repr

namespace Visit

inductive Part where
  | call
  | ended (crashed : Bool)
  | freeSlot
  | leave
deriving DecidableEq, Repr

def next? : Visit → Part → Option Visit
  | waiting, .call => some handling
  | handling, .ended crashed => some (finished crashed true true)
  | finished crashed true entry, .freeSlot => some (finished crashed false entry)
  | finished crashed slot true, .leave =>
    if crashed || !slot then some (finished crashed slot false) else none
  | _, _ => none

def holdsSlot : Visit → Bool
  | finished _ slot _ => slot
  | _ => true

def isTracked : Visit → Bool
  | finished _ _ entry => entry
  | _ => true

def isOver : Visit → Bool
  | finished _ _ _ => true
  | _ => false

end Visit

/-- What a part of a visit is to the server. -/
def Server.seen (s : Server) : Visit.Part → Server
  | .freeSlot => { s with freeSlots := s.freeSlots + 1 }
  | .leave => { s with connections := s.connections.release }
  | .call | .ended _ => s

structure Serving where
  server : Server
  visits : List Visit
deriving DecidableEq, Repr

namespace Serving

def new (name bindAddress : String) (maxConnections : Nat) : Serving :=
  { server := .new name bindAddress maxConnections, visits := [] }

def handling (v : Serving) : Nat := v.visits.countP (· = .handling)

/-- The number of slots that go with connections. -/
def holders (v : Serving) : Nat := v.visits.countP Visit.holdsSlot

inductive Event where
  | server (event : Server.Event)
  | visit (number : Nat) (part : Visit.Part)

def accept (v : Serving) : Serving :=
  if v.server.accepting && v.server.slotHeld then
    { server := v.server.accepted, visits := v.visits ++ [.waiting] }
  else v

def visit (v : Serving) (number : Nat) (part : Visit.Part) : Serving :=
  match v.visits[number]?.bind (·.next? part) with
  | some next => { server := v.server.seen part, visits := v.visits.set number next }
  | none => v

/-- Connections end in parts only. -/
def step (v : Serving) : Event → Serving
  | .server .accepted => v.accept
  | .server .connectionEnded => v
  | .server event => { v with server := v.server.step event }
  | .visit number part => v.visit number part

def run (v : Serving) (events : List Event) : Serving := events.foldl step v

end Serving
end Switchyard.Net
