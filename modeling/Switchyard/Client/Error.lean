import Switchyard.Net.Connect
import Switchyard.Net.Tracker

/-! # Client failures

Every cause for which a message gets no reply, and the failures of the pool its connection comes from.
The two refer to each other, for the pool creates connections.
-/
namespace Switchyard.Client
open Net
set_option autoImplicit false

mutual

inductive Error where
  | connectTimeout (address : String) (limit : Duration)
  | connect (cause : ConnectError)
  | responseTimeout (limit : Duration)
  | pool (cause : PoolError)
  | inactive (subject : String)
  | alreadyAssociated (id : ConnectionId)
  | connectionClosed (id : ConnectionId)
  | connectionFailed (id : ConnectionId) (cause : String)
  | cancelled
  | protocol (cause : String)
  | io (cause : String)

inductive PoolError where
  | exhausted (maxTotal : Nat)
  | closed
  | create (cause : Error)
  | invalidOnCreate

end

deriving instance DecidableEq for Error, PoolError

mutual

def Error.message : Error → String
  | .connectTimeout address limit => s!"TCP connect to {address} timed out after {limit.text}"
  | .connect cause => cause.message
  | .responseTimeout limit => s!"no response within {limit.text}"
  | .pool cause => "can't obtain a connection from the pool: " ++ cause.message
  | .inactive subject => s!"{subject} isn't active"
  | .alreadyAssociated id => s!"message is already associated with {id.text}"
  | .connectionClosed id => s!"{id.text} is closed"
  | .connectionFailed id cause => s!"{id.text} failed: {cause}"
  | .cancelled => "response was cancelled because its connection closed"
  | .protocol cause => s!"protocol violation: {cause}"
  | .io cause => s!"I/O error: {cause}"

def PoolError.message : PoolError → String
  | .exhausted maxTotal => s!"pool exhausted, all {maxTotal} objects are borrowed"
  | .closed => "pool is closed"
  | .create cause => "unable to create a pooled object: " ++ cause.message
  | .invalidOnCreate => "unable to validate a newly created object"

end

namespace Error

def ofConnect : ConnectError → Error
  | .timeout address limit => connectTimeout address limit
  | cause => connect cause

/-- Response timeouts and connect timeouts, also those met while the pool created a connection. -/
def isTimeout : Error → Bool
  | responseTimeout _ | connectTimeout .. => true
  | pool (.create cause) => cause.isTimeout
  | _ => false

end Error
end Switchyard.Client
