import Switchyard.Net.Stream
import Switchyard.Proxy.Relay

/-! # A relay over streams in memory

A relay with the streams of its front end and its back end. Both ends are gone once the relay has
ended.
-/
namespace Switchyard.Proxy
open Net
set_option autoImplicit false

structure Pairing where
  relay : Relay
  front : Stream
  back : Stream

namespace Pairing

def new (bufferSize capacity : Nat) : Pairing :=
  { relay := .new bufferSize false, front := .new capacity, back := .new capacity }

def source (p : Pairing) : Direction → Stream
  | .upstream => p.front
  | .downstream => p.back

def withSource (p : Pairing) (direction : Direction) (stream : Stream) : Pairing :=
  match direction with
  | .upstream => { p with front := stream }
  | .downstream => { p with back := stream }

def sink (p : Pairing) : Direction → Stream
  | .upstream => p.back
  | .downstream => p.front

def withSink (p : Pairing) (direction : Direction) (stream : Stream) : Pairing :=
  match direction with
  | .upstream => { p with back := stream }
  | .downstream => { p with front := stream }

def react (p : Pairing) (direction : Direction) (event : ForwardEvent) : Pairing :=
  let p := { p with relay := p.relay.step (.on direction event) }
  if p.relay.hasEnded then { p with front := p.front.drop, back := p.back.drop } else p

def flushEvent (p : Pairing) (direction : Direction) : ForwardEvent :=
  match (p.sink direction).failure? .flush with
  | some cause => .flushFailed cause
  | none => .flushed

/-- One step of a direction, if it can take any. -/
def turn (p : Pairing) (direction : Direction) : Option Pairing :=
  let f := p.relay.forward direction
  if p.relay.shared.closing && f.isCancellable then some (p.react direction .turn)
  else
    match f.phase with
    | .ended _ => none
    | .reading =>
      match (p.source direction).read f.limit with
      | (.data data, stream) => some ((p.withSource direction stream).react direction (.read data))
      | (.failed cause, _) => some (p.react direction (.readFailed cause))
      | (.notReady, _) => none
    | .writing _ left =>
      match (p.sink direction).write left with
      | (.wrote n, stream) => some ((p.withSink direction stream).react direction (.wrote n))
      | (.failed cause, _) => some (p.react direction (.writeFailed cause))
      | (.notReady, _) => none
    | .flushing _ | .finalFlush => some (p.react direction (p.flushEvent direction))
    | .finalShutdown =>
      some ((p.withSink direction (p.sink direction).shutdown).react direction .shutdownDone)

def turns : Nat → Pairing → Pairing
  | 0, p => p
  | fuel + 1, p =>
    match (p.turn .upstream).orElse fun _ => p.turn .downstream with
    | some p => turns fuel p
    | none => p

/-- A bound on the turns that can follow one another: a byte read needs at most three of them, and
each end takes a few. -/
def turnBound (p : Pairing) : Nat :=
  4 * (p.front.inbound.content.length + p.back.inbound.content.length) + 16

def settle (p : Pairing) : Pairing := turns p.turnBound p

def stream (p : Pairing) (atFront : Bool) : Stream := if atFront then p.front else p.back

def withStream (p : Pairing) (atFront : Bool) (stream : Stream) : Pairing :=
  if atFront then { p with front := stream } else { p with back := stream }

def shutdown (p : Pairing) : Pairing := { p with relay := p.relay.shutdown }

end Pairing
end Switchyard.Proxy
