import Switchyard.Proxy.Forward

/-! # Transfers by script

One direction of a relay between ends whose answers are laid down beforehand: one item is used for
each call. A script that has run out stands for the end of what is read, for writes that take
everything and for flushes that succeed.
-/
namespace Switchyard.Proxy
set_option autoImplicit false

/-- The answer to one call. A call that has to wait is made again; meanwhile the shared token may have
been cancelled. -/
inductive Scripted (α : Type) where
  | ready (answer : α)
  | failed (cause : String)
  | waits (cancel : Bool)

/-- `none` is the end of what is read. -/
abbrev ScriptedRead := Scripted (Option Bytes)

structure Script where
  reads : List ScriptedRead
  writes : List (Scripted Nat)
  flushes : List (Scripted Unit)
  shutdownFails : Bool

/-- The calls that did not have to wait. -/
inductive TransferCall where
  | read (size : Nat)
  | readEnd
  | readError
  | write (size : Nat)
  | writeError
  | flush
  | flushError
  | shutdown
  | shutdownError
deriving DecidableEq, Repr

def TransferCall.text : TransferCall → String
  | read size => s!"read {size}"
  | readEnd => "read end"
  | readError => "read error"
  | write size => s!"write {size}"
  | writeError => "write error"
  | flush => "flush"
  | flushError => "flush error"
  | shutdown => "shutdown"
  | shutdownError => "shutdown error"

structure Transfer where
  forward : Forward
  shared : Shared
  script : Script
  log : List TransferCall

namespace Transfer

def react (t : Transfer) (event : ForwardEvent) (call : TransferCall) : Transfer :=
  let (forward, shared) := t.forward.step t.shared event
  { t with forward, shared, log := t.log ++ [call] }

def wait (t : Transfer) (cancel : Bool) : Transfer :=
  { t with shared := { t.shared with closing := t.shared.closing || cancel } }

/-- What does not fit into the buffer is left for the next read. -/
def read (t : Transfer) : Transfer :=
  let rest := { t with script := { t.script with reads := t.script.reads.drop 1 } }
  match t.script.reads.head? with
  | none | some (.ready none) => rest.react (.read []) .readEnd
  | some (.waits cancel) => rest.wait cancel
  | some (.failed cause) => rest.react (.readFailed cause) .readError
  | some (.ready (some data)) =>
    let left := data.drop t.forward.limit
    let reads := if left.isEmpty then rest.script.reads else .ready (some left) :: rest.script.reads
    { rest with script := { rest.script with reads } }.react (.read data)
      (.read (min data.length t.forward.limit))

def write (t : Transfer) (left : Bytes) : Transfer :=
  let rest := { t with script := { t.script with writes := t.script.writes.drop 1 } }
  match t.script.writes.head? with
  | none => rest.react (.wrote left.length) (.write left.length)
  | some (.waits cancel) => rest.wait cancel
  | some (.failed cause) => rest.react (.writeFailed cause) .writeError
  | some (.ready n) => rest.react (.wrote (min n left.length)) (.write (min n left.length))

def flush (t : Transfer) : Transfer :=
  let rest := { t with script := { t.script with flushes := t.script.flushes.drop 1 } }
  match t.script.flushes.head? with
  | none | some (.ready _) => rest.react .flushed .flush
  | some (.waits cancel) => rest.wait cancel
  | some (.failed cause) => rest.react (.flushFailed cause) .flushError

/-- The next call, unless the token has been cancelled before it. -/
def step (t : Transfer) : Transfer :=
  if t.shared.closing && t.forward.isCancellable then
    let (forward, shared) := t.forward.step t.shared .turn
    { t with forward, shared }
  else
    match t.forward.phase with
    | .reading => t.read
    | .writing _ left => t.write left
    | .flushing _ | .finalFlush => t.flush
    | .finalShutdown =>
      t.react .shutdownDone (if t.script.shutdownFails then .shutdownError else .shutdown)
    | .ended _ => t

def play : Nat → Transfer → Transfer
  | 0, t => t
  | fuel + 1, t => if t.forward.hasEnded then t else t.step.play fuel

end Transfer

namespace Script

def sizeOfRead : ScriptedRead → Nat
  | .ready (some data) => data.length
  | _ => 0

/-- An upper bound on the calls of a transfer: every item takes a call, every byte at most a read, a
write and a flush, and the end a few more. -/
def bound (script : Script) : Nat :=
  let bytes := script.reads.foldl (fun n item => n + sizeOfRead item) 0
  script.reads.length + script.writes.length + script.flushes.length + 3 * bytes + 4

def run (script : Script) (direction : Direction) (bufferSize : Nat) (cancelled : Bool) : Transfer :=
  Transfer.play script.bound
    { forward := .new direction bufferSize, shared := ⟨cancelled, []⟩, script, log := [] }

end Script
end Switchyard.Proxy
