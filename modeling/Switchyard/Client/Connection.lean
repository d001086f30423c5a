import Switchyard.Client.Codec
import Switchyard.Client.Message

/-! # Pipelined connections

Messages are written in the order they were sent, and replies go to the messages that expect one in
the order those were written. One task does all of it. It looks for the end of the connection first,
then for messages to write, then for replies in what it has read, and it reads nothing while it
writes. Nothing of an earlier message is left to be written when the next one is taken up, so that one
enters the sink at once; only the rest of its way can stall.

The steps that the task takes by itself, the answers of the transport, and what others do to the
connection are events. One that comes out of turn changes nothing.
-/
namespace Switchyard.Client
open Net
set_option autoImplicit false

/-- Why the task of a connection has ended. -/
inductive Termination where
  | closed
  | disconnected
  | failed (cause : Error)
deriving DecidableEq

/-- `messages` has every message the connection has accepted; the other fields refer to them by
position. `queued` are those not begun, `pending` those written whose reply is due, `writing` the one
whose bytes are `outgoing`. -/
structure Connection (γ : Type) where
  handle : Handle
  codec : γ
  messages : List Message
  queued : List Nat
  senderDropped : Bool
  writing : Option Nat
  outgoing : Bytes
  pending : List Nat
  incoming : Bytes
  /-- Whether the bytes read have changed since a reply was last looked for in them. -/
  readable : Bool
  inboundEnded : Bool
  termination : Option Termination

namespace Connection
variable {γ : Type}

def new (id : ConnectionId) (parentCancelled : Bool) (codec : γ) : Connection γ :=
  { handle := .new id parentCancelled, codec, messages := [], queued := [], senderDropped := false
    writing := none, outgoing := [], pending := [], incoming := [], readable := false
    inboundEnded := false, termination := none }

def id (c : Connection γ) : ConnectionId := c.handle.id

def hasEnded (c : Connection γ) : Bool := c.termination.isSome

def isActive (c : Connection γ) : Bool := c.handle.isActive && !c.hasEnded

def isCompleted (c : Connection γ) (k : Nat) : Bool := (c.messages[k]?).any (·.isCompleted)

def complete (c : Connection γ) (k : Nat) (outcome : Outcome) : Connection γ :=
  { c with messages := c.messages.modify k fun m => (m.complete outcome).2 }

def completeAll (c : Connection γ) (ks : List Nat) (outcome : Outcome) : Connection γ :=
  ks.foldl (fun c k => c.complete k outcome) c

/-- What becomes of the messages whose reply is due when the connection ends. -/
def pendingOutcome (c : Connection γ) : Termination → Outcome
  | .failed cause => .error (.connectionFailed c.id cause.message)
  | .closed | .disconnected => .error .cancelled

def finish (c : Connection γ) (termination : Termination) : Connection γ :=
  let ended := { c with
    handle := c.handle.close.2, queued := [], pending := [], writing := none
    termination := some termination }
  (ended.completeAll c.queued (.error (.connectionClosed c.id))).completeAll c.pending
    (c.pendingOutcome termination)

/-! What others do. -/

/-- Queues a message; its position among the accepted ones names it from now on. -/
def send (c : Connection γ) (m : Message) : Except Error (Nat × Connection γ) :=
  if !c.handle.isActive then .error (.connectionClosed c.id)
  else
    match m.associate c.id with
    | .error cause => .error cause
    | .ok m =>
      if c.senderDropped || c.hasEnded then .error (.connectionClosed c.id)
      else
        let k := c.messages.length
        .ok (k, { c with messages := c.messages ++ [m], queued := c.queued ++ [k] })

def close (c : Connection γ) : Bool × Connection γ :=
  let (first, handle) := c.handle.close
  (first, { c with handle })

def cancelParent (c : Connection γ) : Connection γ := { c with handle := c.handle.parentCancelled }

/-- No more messages will be sent. -/
def dropSender (c : Connection γ) : Connection γ := { c with senderDropped := true }

/-- The timer of a message fires. -/
def expire (c : Connection γ) (k : Nat) (metrics : Metrics) : Bool × Connection γ × Metrics :=
  match c.messages[k]? with
  | none => (false, c, metrics)
  | some m =>
    let (first, m, handle, metrics) := m.expire c.handle metrics
    (first, { c with messages := c.messages.set k m, handle }, metrics)

/-! What the task does. -/

/-- What the task waits for. -/
inductive Awaited where
  | nothing
  | write
  | flush
  | read
deriving DecidableEq, Repr

/-- A task that can go on by itself, or has ended, waits for nothing. -/
def awaited (c : Connection γ) : Awaited :=
  if c.hasEnded || !c.handle.isActive then .nothing
  else if c.writing.isSome then if c.outgoing.isEmpty then .flush else .write
  else if !c.queued.isEmpty || c.senderDropped || c.readable then .nothing
  else .read

/-- The end of a connection that is to end; a message half written will not be written whole. -/
def shut (c : Connection γ) : Connection γ :=
  match c.writing with
  | some k => (c.complete k (.error (.connectionClosed c.id))).finish .closed
  | none => c.finish .closed

/-- What the task can do by itself. -/
inductive Move where
  | rest
  | shut
  | take (k : Nat) (m : Message)
  | leave
  | decode

def next (c : Connection γ) : Move :=
  if c.hasEnded then .rest
  else if !c.handle.isActive then .shut
  else if c.writing.isSome then .rest
  else
    match c.queued with
    | k :: _ =>
      match c.messages[k]? with
      | some m => .take k m
      | none => .rest
    | [] => if c.senderDropped then .leave else if c.readable then .decode else .rest

/-- The timer that starts when the task next goes on by itself. -/
def timer? (c : Connection γ) : Option (Nat × Duration) :=
  match c.next with
  | .take k m => if m.expectsResponse then some (k, m.timeout) else none
  | _ => none

/-- Takes up a message. Its place among those whose reply is due is settled before it is written. -/
def begin (codec : Codec γ) (c : Connection γ) (k : Nat) (m : Message) : Connection γ :=
  match codec.encode c.codec m.payload with
  | .error cause =>
    (c.complete k (.error (.connectionFailed c.id cause))).finish (.failed (.io cause))
  | .ok (bytes, state) =>
    { c with
      codec := state, writing := some k, outgoing := bytes
      pending := if m.expectsResponse then c.pending ++ [k] else c.pending }

def unexpected (c : Connection γ) : Error :=
  .protocol s!"unexpected inbound message on {c.id.text}, no response is pending"

/-- Hands a reply to the message that has waited longest. -/
def deliver (c : Connection γ) (payload : Bytes) : Connection γ :=
  match c.pending with
  | [] => c.finish (.failed c.unexpected)
  | k :: rest =>
    { c with pending := rest }.complete k (.ok (some { payload, connection := c.id }))

/-- What the bytes read begin with. -/
def decoded (codec : Codec γ) (c : Connection γ) : Decoded γ :=
  if c.inboundEnded then codec.decodeEnd c.codec c.incoming else codec.decode c.codec c.incoming

/-- Looks for a reply in the bytes read. Without one there the task has to read more, or the
connection is at its end if there is no more. -/
def decode (codec : Codec γ) (c : Connection γ) : Connection γ :=
  match c.decoded codec with
  | .error cause => c.finish (.failed (.io cause))
  | .ok (some (payload, rest, state)) => { c with incoming := rest, codec := state }.deliver payload
  | .ok none => if c.inboundEnded then c.finish .disconnected else { c with readable := false }

/-- The task goes on by itself. -/
def turn (codec : Codec γ) (c : Connection γ) : Connection γ :=
  match c.next with
  | .rest => c
  | .shut => c.shut
  | .take k m => { c with queued := c.queued.tail }.begin codec k m
  | .leave => c.finish .closed
  | .decode => c.decode codec

/-! What the transport answers. -/

def expectsReply (c : Connection γ) (k : Nat) : Bool := (c.messages[k]?).any (·.expectsResponse)

/-- The first `n` bytes of what is to be written have been taken. -/
def written (c : Connection γ) (n : Nat) : Connection γ :=
  if c.awaited = .write then { c with outgoing := c.outgoing.drop n } else c

/-- All that was written has been passed on. -/
def flushed (c : Connection γ) : Connection γ :=
  match c.awaited, c.writing with
  | .flush, some k =>
    let c := { c with writing := none }
    if c.expectsReply k then c else c.complete k (.ok none)
  | _, _ => c

/-- Writing or flushing has failed. -/
def writeFailed (c : Connection γ) (cause : String) : Connection γ :=
  match c.awaited, c.writing with
  | .write, some k | .flush, some k =>
    let c := if c.expectsReply k then c
      else c.complete k (.error (.connectionFailed c.id cause))
    c.finish (.failed (.io cause))
  | _, _ => c

/-- Bytes have arrived; no bytes are the end of what the peer sends. -/
def received (c : Connection γ) (data : Bytes) : Connection γ :=
  if c.awaited = .read then
    { c with
      incoming := c.incoming ++ data, readable := true
      inboundEnded := c.inboundEnded || data.isEmpty }
  else c

def readFailed (c : Connection γ) (cause : String) : Connection γ :=
  if c.awaited = .read then c.finish (.failed (.io cause)) else c

end Connection

/-- Everything that can happen to a connection. A message may also be completed by someone who has
nothing to do with the connection. -/
inductive ConnectionEvent where
  | send (m : Message)
  | complete (k : Nat) (outcome : Outcome)
  | close
  | cancelParent
  | dropSender
  | expire (k : Nat)
  | turn
  | written (n : Nat)
  | flushed
  | writeFailed (cause : String)
  | received (data : Bytes)
  | readFailed (cause : String)

namespace Connection
variable {γ : Type}

def step (codec : Codec γ) (c : Connection γ) : ConnectionEvent → Connection γ
  | .send m => ((c.send m).map (·.2)).toOption.getD c
  | .complete k outcome => c.complete k outcome
  | .close => c.close.2
  | .cancelParent => c.cancelParent
  | .dropSender => c.dropSender
  | .expire k => (c.expire k []).2.1
  | .turn => c.turn codec
  | .written n => c.written n
  | .flushed => c.flushed
  | .writeFailed cause => c.writeFailed cause
  | .received data => c.received data
  | .readFailed cause => c.readFailed cause

def run (codec : Codec γ) (c : Connection γ) (events : List ConnectionEvent) : Connection γ :=
  events.foldl (step codec) c

end Connection
end Switchyard.Client
