import Switchyard.Net.Connect
import Switchyard.Proxy.Relay

/-! # Proxy sessions

A front-end connection is relayed once the back end has been connected, and closed without an answer
if it cannot be. Nothing is read from the front end before.
-/
namespace Switchyard.Proxy
open Net
set_option autoImplicit false

inductive SessionPhase where
  | connecting
  | relaying (relay : Relay)
  | ended (outcome : Option (Except Error RelayStats))

structure Session where
  backend : String
  bufferSize : Nat
  phase : SessionPhase
  metrics : Metrics

namespace Session

def new (backend : String) (bufferSize : Nat) : Session :=
  { backend, bufferSize, phase := .connecting, metrics := [] }

/-- The connect has ended; a pairing is counted while it is relayed. -/
def connected (s : Session) (result : Except ConnectError Unit) : Session :=
  match s.phase, result with
  | .connecting, .ok _ =>
    { s with
      phase := .relaying (.new s.bufferSize false), metrics := s.metrics.add .activePairings 1 }
  | .connecting, .error cause => { s with phase := .ended (some (.error (.ofConnect cause))) }
  | _, _ => s

def onRelay (s : Session) (event : RelayEvent) : Session :=
  match s.phase with
  | .relaying relay =>
    let relay := relay.step event
    match relay.outcome? with
    | some outcome =>
      { s with phase := .ended (some outcome), metrics := s.metrics.add .activePairings (-1) }
    | none => { s with phase := .relaying relay }
  | _ => s

/-- A shutdown before the back end is connected ends the session at once. -/
def shutdown (s : Session) : Session :=
  match s.phase with
  | .connecting => { s with phase := .ended none }
  | _ => s.onRelay .shutdown

end Session
end Switchyard.Proxy
