import Switchyard.Bytes
import Switchyard.Client.Error
import Switchyard.Metrics

/-! # Messages and their outcomes

A message pairs a payload with the time its reply may take; no time at all means that no reply is
expected. A message is sent on one connection at most, and its first outcome is final. A message that
runs out of time takes its connection with it, for the reply might still come.
-/
namespace Switchyard.Client
open Net
set_option autoImplicit false

/-- What everyone who may close a connection shares. A connection is also closing when the client it
belongs to is, which nobody in particular has asked of it. -/
structure Handle where
  id : ConnectionId
  closing : Bool
  closed : Bool
deriving DecidableEq, Repr

namespace Handle

def new (id : ConnectionId) (parentCancelled : Bool) : Handle :=
  { id, closing := parentCancelled, closed := false }

def isActive (h : Handle) : Bool := !h.closing

/-- Asks for the end of the connection; the answer is `true` only for the first who asks. -/
def close (h : Handle) : Bool × Handle :=
  if h.closed then (false, h) else (true, { h with closing := true, closed := true })

def parentCancelled (h : Handle) : Handle := { h with closing := true }

end Handle

structure Response where
  payload : Bytes
  connection : ConnectionId
deriving DecidableEq, Repr

abbrev Outcome := Except Error (Option Response)

structure Message where
  payload : Bytes
  timeout : Duration
  connection : Option ConnectionId
  outcome : Option Outcome

namespace Message

def new (payload : Bytes) (timeout : Duration) : Message :=
  { payload, timeout, connection := none, outcome := none }

def expectsResponse (m : Message) : Bool := !m.timeout.isZero

def isCompleted (m : Message) : Bool := m.outcome.isSome

def associate (m : Message) (id : ConnectionId) : Except Error Message :=
  match m.connection with
  | some other => .error (.alreadyAssociated other)
  | none => .ok { m with connection := some id }

def complete (m : Message) (outcome : Outcome) : Bool × Message :=
  match m.outcome with
  | some _ => (false, m)
  | none => (true, { m with outcome := some outcome })

/-- The time for the reply is over. -/
def expire (m : Message) (h : Handle) (metrics : Metrics) : Bool × Message × Handle × Metrics :=
  match m.complete (.error (.responseTimeout m.timeout)) with
  | (true, m) =>
    (true, m, if m.connection.isSome then h.close.2 else h, metrics.count .responseTimeouts)
  | (false, m) => (false, m, h, metrics)

end Message
end Switchyard.Client
