import Switchyard.Bytes
import Switchyard.Proxy.Error

/-! # One direction of a relay

Bytes are copied a chunk at a time, and nothing is read while a chunk has not been written and
flushed. The end of what is read is passed on by a flush and a shutdown of the writer. Both directions
of a relay share a token that asks for the end; a direction looks at it before it waits for anything,
but not once it is passing an end on.
-/
namespace Switchyard.Proxy
set_option autoImplicit false

/-- What the two directions share. -/
structure Shared where
  closing : Bool
  metrics : Metrics

inductive ForwardPhase where
  | reading
  /-- A chunk of some size of which the bytes `left` have not been written. -/
  | writing (size : Nat) (left : Bytes)
  | flushing (size : Nat)
  | finalFlush
  | finalShutdown
  | ended (failure : Option Error)
deriving DecidableEq, Repr

/-- `total` counts the bytes of chunks written and flushed. `taken` has every byte read and `given`
every byte the writer has accepted. -/
structure Forward where
  direction : Direction
  limit : Nat
  phase : ForwardPhase
  total : Nat
  taken : Bytes
  given : Bytes
deriving DecidableEq, Repr

inductive ForwardEvent where
  | turn
  | read (data : Bytes)
  | readFailed (cause : String)
  | wrote (n : Nat)
  | writeFailed (cause : String)
  | flushed
  | flushFailed (cause : String)
  | shutdownDone
deriving DecidableEq, Repr

namespace Forward

/-- A buffer holds at least one byte. -/
def new (direction : Direction) (bufferSize : Nat) : Forward :=
  { direction, limit := max bufferSize 1, phase := .reading, total := 0, taken := [], given := [] }

def hasEnded (f : Forward) : Bool :=
  match f.phase with
  | .ended _ => true
  | _ => false

def failure? (f : Forward) : Option Error :=
  match f.phase with
  | .ended failure => failure
  | _ => none

def isCancellable (f : Forward) : Bool :=
  match f.phase with
  | .reading | .writing .. | .flushing _ => true
  | _ => false

def fail (f : Forward) (shared : Shared) (cause : Error) : Forward × Shared :=
  ({ f with phase := .ended (some cause) }, { shared with closing := true })

def writeZero : String := "write zero"

/-- What the transport answers in the phase that has asked for it. -/
def react (f : Forward) (shared : Shared) (event : ForwardEvent) : Forward × Shared :=
  match f.phase, event with
  | .reading, .read data =>
    let chunk := data.take f.limit
    if chunk.isEmpty then ({ f with phase := .finalFlush }, shared)
    else ({ f with phase := .writing chunk.length chunk, taken := f.taken ++ chunk }, shared)
  | .reading, .readFailed cause => f.fail shared (.read f.direction cause)
  | .writing size left, .wrote n =>
    if n = 0 then f.fail shared (.forward f.direction writeZero)
    else
      let rest := left.drop n
      ({ f with
        phase := if rest.isEmpty then .flushing size else .writing size rest
        given := f.given ++ left.take n }, shared)
  | .writing .., .writeFailed cause => f.fail shared (.forward f.direction cause)
  | .flushing size, .flushed =>
    ({ f with phase := .reading, total := f.total + size },
      { shared with metrics := shared.metrics.add (.relayedBytes f.direction) size })
  | .flushing _, .flushFailed cause => f.fail shared (.forward f.direction cause)
  | .finalFlush, .flushed | .finalFlush, .flushFailed _ => ({ f with phase := .finalShutdown }, shared)
  | .finalShutdown, .shutdownDone =>
    ({ f with phase := .ended none }, { shared with closing := true })
  | _, _ => (f, shared)

def step (f : Forward) (shared : Shared) (event : ForwardEvent) : Forward × Shared :=
  if shared.closing && f.isCancellable then ({ f with phase := .ended none }, shared)
  else f.react shared event

end Forward
end Switchyard.Proxy
