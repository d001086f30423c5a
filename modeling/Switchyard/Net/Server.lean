import Switchyard.Config.Settings
import Switchyard.Net.Bind
import Switchyard.Net.Slots
import Switchyard.Net.Tracker

/-! # Servers

A server is started at most once, by a bind that succeeds. Its accept loop takes a slot before it
waits for a connection, and each connection keeps its slot until its handler has ended. A stop ends
the accept loop; a shutdown stops the server, waits for the accept loop and then for the connections,
and runs the handler's hook last.
-/
namespace Switchyard.Net
set_option autoImplicit false

/-- `breakdown` is what becomes of a start that asks for too many slots. -/
inductive ServerError where
  | bind (address : String) (cause : BindFailure)
  | alreadyStarted (name : String)
  | stopped (name : String)
  | breakdown
deriving DecidableEq, Repr

def ServerError.message : ServerError → String
  | bind address cause => s!"Failed to bind {address}: {cause.message}"
  | alreadyStarted name => s!"server {name} is already started"
  | stopped name => s!"server {name} is stopped"
  | breakdown => Slots.overflow

inductive ServerState where
  | idle
  | running (address : SocketAddress)
  | stopped
deriving DecidableEq, Repr

/-- How far a shutdown has come. -/
inductive Teardown where
  | none
  | requested
  | awaitingAccept
  | draining
  | done
deriving DecidableEq, Repr

/-- `starting` is set while a start holds the state for its bind, and `slotHeld` while the accept loop
waits for a connection. -/
structure Server where
  name : String
  bindAddress : String
  maxConnections : Nat
  state : ServerState
  starting : Bool
  stopRequested : Bool
  accepting : Bool
  slotHeld : Bool
  freeSlots : Nat
  connections : Tracker
  teardown : Teardown
  hookRuns : Nat
deriving DecidableEq, Repr

namespace Server

def new (name bindAddress : String) (maxConnections : Nat) : Server :=
  { name, bindAddress, maxConnections, state := .idle, starting := false, stopRequested := false
    accepting := false, slotHeld := false, freeSlots := maxConnections, connections := .empty
    teardown := .none, hookRuns := 0 }

def ofSettings (name : String) (listener : Config.ListenerSettings) : Server :=
  .new name listener.bindAddress listener.maxConnections

def describe (s : Server) : String := s!"TCP server {s.name}"

def isActive (s : Server) : Bool := s.teardown = .none

def localAddress? (s : Server) : Option SocketAddress :=
  match s.state with
  | .running address => some address
  | _ => none

/-- A start may go on to bind only while the server is idle and nobody has asked it to stop. -/
def beginStart (s : Server) : Except ServerError Server :=
  match s.state with
  | .idle => if s.stopRequested then .error (.stopped s.name) else .ok { s with starting := true }
  | .running _ => .error (.alreadyStarted s.name)
  | .stopped => .error (.stopped s.name)

/-- The slots are made once the address has been bound. -/
def bind (binder : Binder) (address : String) (slots : Nat) : Except ServerError SocketAddress :=
  match SocketAddress.parse? address with
  | none => .error (.bind address .badAddress)
  | some parsed =>
    match binder parsed with
    | .error cause => .error (.bind address cause)
    | .ok bound => if Slots.fit slots then .ok bound else .error .breakdown

/-- The bind has ended; when it has failed the server can be started again. -/
def finishStart (s : Server) (bound : Except ServerError SocketAddress) :
    Except ServerError SocketAddress × Server :=
  match bound with
  | .error cause => (.error cause, { s with starting := false })
  | .ok address =>
    (.ok address, { s with starting := false, state := .running address, accepting := true })

def start (s : Server) (binder : Binder) : Except ServerError SocketAddress × Server :=
  match s.beginStart with
  | .error cause => (.error cause, s)
  | .ok s => s.finishStart (bind binder s.bindAddress s.maxConnections)

def stop (s : Server) : Server := { s with stopRequested := true }

/-! The accept loop and its connections. -/

def takeSlot (s : Server) : Server :=
  if s.accepting && !s.slotHeld && 0 < s.freeSlots then
    { s with slotHeld := true, freeSlots := s.freeSlots - 1 }
  else s

/-- A connection has been accepted; its slot goes with it. -/
def accepted (s : Server) : Server :=
  if s.accepting && s.slotHeld then
    { s with slotHeld := false, connections := s.connections.track.2 }
  else s

def releaseSlot (s : Server) : Server :=
  if s.slotHeld then { s with slotHeld := false, freeSlots := s.freeSlots + 1 } else s

def acceptFailed (s : Server) : Server := if s.accepting then s.releaseSlot else s

/-- The accept loop ends once a stop has been asked for, and gives up the slot it waits with. -/
def endAccepting (s : Server) : Server :=
  if s.accepting && s.stopRequested then { s.releaseSlot with accepting := false } else s

/-- The handler of a connection has returned, or broken down. -/
def connectionEnded (s : Server) : Server :=
  if s.connections.active = 0 then s
  else { s with connections := s.connections.release, freeSlots := s.freeSlots + 1 }

/-! Shutdown. -/

def beginShutdown (s : Server) : Server :=
  if s.isActive then { s.stop with teardown := .requested } else s

/-- The next part of a shutdown under way, if it can be taken. `patient` is whether the wait for the
connections goes on. -/
def continueShutdown (s : Server) (patient : Bool) : Server :=
  match s.teardown with
  | .requested => if s.starting then s else { s with state := .stopped, teardown := .awaitingAccept }
  | .awaitingAccept => if s.accepting then s else { s with teardown := .draining }
  | .draining =>
    if s.connections.isIdle || !patient then
      { s with teardown := .done, hookRuns := s.hookRuns + 1 }
    else s
  | .none | .done => s

/-- A shutdown that nothing holds up but connections, which it does not wait for. -/
def shutdown (s : Server) : Server :=
  let s := s.beginShutdown
  (((s.continueShutdown false).endAccepting.continueShutdown false).continueShutdown false)

inductive Event where
  | beginStart
  | finishStart (bound : Except ServerError SocketAddress)
  | stop
  | takeSlot
  | accepted
  | acceptFailed
  | endAccepting
  | connectionEnded
  | beginShutdown
  | continueShutdown (patient : Bool)

def step (s : Server) : Event → Server
  | .beginStart => if s.starting then s else (s.beginStart.toOption).getD s
  | .finishStart bound => if s.starting then (s.finishStart bound).2 else s
  | .stop => s.stop
  | .takeSlot => s.takeSlot
  | .accepted => s.accepted
  | .acceptFailed => s.acceptFailed
  | .endAccepting => s.endAccepting
  | .connectionEnded => s.connectionEnded
  | .beginShutdown => s.beginShutdown
  | .continueShutdown patient => s.continueShutdown patient

def run (s : Server) (events : List Event) : Server := events.foldl step s

end Server
end Switchyard.Net
