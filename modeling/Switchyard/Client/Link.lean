import Switchyard.Client.Timed
import Switchyard.Net.Stream

/-! # A connection over a stream in memory

A connection in time and its stream. The task takes one step after the other, and the link is settled
when it can take none. Time passes only from outside.
-/
namespace Switchyard.Client
open Net
set_option autoImplicit false

structure Link (γ : Type) extends Timed γ where
  codec : Codec γ
  stream : Stream
  /-- A write that found no room waits for some, whatever else changes. -/
  writeWaits : Bool

namespace Link
variable {γ : Type}

/-- The most that one read takes from the stream. -/
def readLimit : Nat := 8192

def new (codec : Codec γ) (state : γ) (capacity : Nat) : Link γ :=
  { Timed.new (.new ⟨1⟩ false state) with
    codec, stream := .new capacity, writeWaits := false }

/-- The stream ends with the task of the connection. -/
def happens (l : Link γ) (event : TimedEvent) : Link γ :=
  let timed := l.toTimed.step l.codec event
  { l with
    toTimed := timed
    stream := if timed.connection.hasEnded then l.stream.drop else l.stream }

def on (l : Link γ) (event : ConnectionEvent) : Link γ := l.happens (.on event)

def write (l : Link γ) : Option (Link γ) :=
  if l.writeWaits then none
  else
    match l.stream.write l.connection.outgoing with
    | (.wrote n, stream) => some ({ l with stream }.on (.written n))
    | (.notReady, _) => some { l with writeWaits := true }
    | (.failed cause, _) => some (l.on (.writeFailed cause))

def flush (l : Link γ) : Link γ :=
  match l.stream.failure? .flush with
  | some cause => l.on (.writeFailed cause)
  | none => l.on .flushed

def read (l : Link γ) : Option (Link γ) :=
  match l.stream.read readLimit with
  | (.data data, stream) => some ({ l with stream }.on (.received data))
  | (.notReady, _) => none
  | (.failed cause, _) => some (l.on (.readFailed cause))

/-- One step of the task, if it can take any. -/
def turn (l : Link γ) : Option (Link γ) :=
  match l.connection.awaited with
  | .write => l.write
  | .flush => some l.flush
  | .read => l.read
  | .nothing => if l.connection.hasEnded then none else some (l.on .turn)

def turns : Nat → Link γ → Link γ
  | 0, l => l
  | fuel + 1, l =>
    match l.turn with
    | some l => turns fuel l
    | none => l

/-- A bound on the turns that can follow one another: each message is taken up, written and flushed
once, each reply delivered once, and each read takes at least one byte. -/
def turnBound (l : Link γ) : Nat :=
  5 * l.connection.queued.length + l.connection.pending.length
    + 2 * l.stream.inbound.content.length + 16

def settle (l : Link γ) : Link γ := turns l.turnBound l

/-! What happens from outside. Nothing of it lets the task run. -/

def send (l : Link γ) (m : Message) : Except Error (Nat × Link γ) :=
  (l.connection.send m).map fun (k, _) => (k, l.on (.send m))

def close (l : Link γ) : Bool × Link γ := (l.connection.close.1, l.on .close)

def cancelParent (l : Link γ) : Link γ := l.on .cancelParent

def dropSender (l : Link γ) : Link γ := l.on .dropSender

def stopTimers (l : Link γ) : Link γ := l.happens .stopTimers

def failFrom (l : Link γ) (call : StreamCall) (cause : String) : Link γ :=
  { l with stream := l.stream.failFrom call cause }

def peerWrite (l : Link γ) (data : Bytes) : PipeWrite × Link γ :=
  let (result, stream) := l.stream.peerWrite data
  (result, { l with stream })

/-- The peer takes what there is, which lets a waiting write go on. -/
def peerTake (l : Link γ) : PipeRead × Link γ :=
  let (result, stream) := l.stream.peerTake
  (result, { l with stream, writeWaits := false })

def peerFinish (l : Link γ) : Link γ := { l with stream := l.stream.peerFinish }

def peerClose (l : Link γ) : Link γ := { l with stream := l.stream.peerClose, writeWaits := false }

/-- Lets time pass in steps, with everything run after each. -/
def wait (l : Link γ) (step : Duration) : Nat → Link γ
  | 0 => l
  | n + 1 => (l.happens (.elapse step)).settle.wait step n

/-- The bytes that the messages not yet begun will take. -/
def unsent (l : Link γ) : Nat :=
  (l.connection.queued.foldl (fun (total, state) k =>
    match (l.connection.messages[k]?).map (l.codec.encode state ·.payload) with
    | some (.ok (bytes, state)) => (total + bytes.length, state)
    | _ => (total, state)) (0, l.connection.codec)).1

/-- Reads by turns with the task until nothing more comes; whether the end was seen. -/
def drainTurns : Nat → Link γ → Bytes → Bytes × Bool × Link γ
  | 0, l, taken => (taken, false, l)
  | fuel + 1, l, taken =>
    match l.peerTake with
    | (.data data, l) => drainTurns fuel l.settle (taken ++ data)
    | (.ended, l) => (taken, true, l)
    | (.empty, l) => (taken, false, l)

def peerDrain (l : Link γ) : Bytes × Bool × Link γ :=
  let l := l.settle
  drainTurns (l.stream.outbound.content.length + l.connection.outgoing.length + l.unsent + 2) l []

end Link
end Switchyard.Client
