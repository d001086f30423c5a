import Switchyard.Net.Pipe
import Switchyard.Proxy.Forward

/-! # Relays

Two directions between a front end and a back end, and the token they share. The first failure is the
outcome; without any it is the number of bytes moved in each direction.
-/
namespace Switchyard.Proxy
open Net
set_option autoImplicit false

structure RelayStats where
  upstream : Nat
  downstream : Nat
deriving DecidableEq, Repr

structure Relay where
  upstream : Forward
  downstream : Forward
  shared : Shared

inductive RelayEvent where
  | shutdown
  | on (direction : Direction) (event : ForwardEvent)
deriving DecidableEq, Repr

namespace Relay

def new (bufferSize : Nat) (closing : Bool) : Relay :=
  { upstream := .new .upstream bufferSize, downstream := .new .downstream bufferSize
    shared := { closing, metrics := [] } }

def forward (r : Relay) : Direction → Forward
  | .upstream => r.upstream
  | .downstream => r.downstream

def shutdown (r : Relay) : Relay := { r with shared := { r.shared with closing := true } }

def step (r : Relay) : RelayEvent → Relay
  | .shutdown => r.shutdown
  | .on .upstream event =>
    let (upstream, shared) := r.upstream.step r.shared event
    { r with upstream, shared }
  | .on .downstream event =>
    let (downstream, shared) := r.downstream.step r.shared event
    { r with downstream, shared }

def run (r : Relay) (events : List RelayEvent) : Relay := events.foldl step r

def hasEnded (r : Relay) : Bool := r.upstream.hasEnded && r.downstream.hasEnded

def outcome? (r : Relay) : Option (Except Error RelayStats) :=
  if !r.hasEnded then none
  else
    match r.upstream.failure?.orElse fun _ => r.downstream.failure? with
    | some cause => some (.error cause)
    | none => some (.ok { upstream := r.upstream.total, downstream := r.downstream.total })

end Relay
end Switchyard.Proxy
