import Switchyard.Net.Pipe

/-! # Streams in memory

One end of a stream, seen by the side that uses it, with what its peer may do. Each kind of call can
be made to fail from some time on.
-/
namespace Switchyard.Net
set_option autoImplicit false

inductive StreamCall where
  | read
  | write
  | flush
deriving DecidableEq, Repr

structure Stream where
  inbound : Pipe
  outbound : Pipe
  failures : List (StreamCall × String)
deriving DecidableEq, Repr

/-- No bytes are the end of what the peer sends. -/
inductive StreamRead where
  | data (data : Bytes)
  | notReady
  | failed (cause : String)
deriving DecidableEq, Repr

inductive StreamWrite where
  | wrote (n : Nat)
  | notReady
  | failed (cause : String)
deriving DecidableEq, Repr

namespace Stream

def new (capacity : Nat) : Stream :=
  { inbound := .new capacity, outbound := .new capacity, failures := [] }

def brokenPipe : String := "broken pipe"

def failure? (s : Stream) (call : StreamCall) : Option String :=
  (s.failures.find? (·.1 = call)).map (·.2)

def failFrom (s : Stream) (call : StreamCall) (cause : String) : Stream :=
  { s with failures := (call, cause) :: s.failures }

def read (s : Stream) (limit : Nat) : StreamRead × Stream :=
  match s.failure? .read with
  | some cause => (.failed cause, s)
  | none =>
    match s.inbound.read limit with
    | (.data data, inbound) => (.data data, { s with inbound })
    | (.ended, _) => (.data [], s)
    | (.empty, _) => (.notReady, s)

def write (s : Stream) (data : Bytes) : StreamWrite × Stream :=
  match s.failure? .write with
  | some cause => (.failed cause, s)
  | none =>
    match s.outbound.write data with
    | (.wrote n, outbound) => (.wrote n, { s with outbound })
    | (.full, _) => (.notReady, s)
    | (.broken, _) => (.failed brokenPipe, s)

/-- Ends what the peer can read. -/
def shutdown (s : Stream) : Stream := { s with outbound := s.outbound.finish }

/-- This end is gone. -/
def drop (s : Stream) : Stream :=
  { s with outbound := s.outbound.finish, inbound := s.inbound.abandon }

/-! The peer. -/

def peerWrite (s : Stream) (data : Bytes) : PipeWrite × Stream :=
  let (result, inbound) := s.inbound.write data
  (result, { s with inbound })

/-- The peer takes all there is. -/
def peerTake (s : Stream) : PipeRead × Stream :=
  let (result, outbound) := s.outbound.read s.outbound.content.length
  (result, { s with outbound })

def peerFinish (s : Stream) : Stream := { s with inbound := s.inbound.finish }

def peerClose (s : Stream) : Stream :=
  { s with inbound := s.inbound.finish, outbound := s.outbound.abandon }

end Stream
end Switchyard.Net
