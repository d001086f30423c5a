import Switchyard.Duration
import Switchyard.Net.Address

/-! # Outbound connects

A connect either succeeds within its limit, or fails, or is given up. What the network makes of an
address is given by its environment.
-/
namespace Switchyard.Net
set_option autoImplicit false

inductive ConnectError where
  | timeout (address : String) (limit : Duration)
  | failed (address cause : String)
deriving DecidableEq, Repr

namespace ConnectError

def message : ConnectError → String
  | timeout address limit => s!"TCP connect to {address} timed out after {limit.text}"
  | failed address cause => s!"TCP connect to {address} failed: {cause}"

def isTimeout : ConnectError → Bool
  | timeout .. => true
  | failed .. => false

end ConnectError

/-- How the network answers a connect to an address that resolves. -/
inductive Reachability where
  | reachable
  | silent
  | unreachable (cause : String)
deriving DecidableEq, Repr

abbrev Network := Resolution → Reachability

namespace Network

def noRoute : String := "Network is unreachable (os error 101)"

/-- Why a name cannot be looked up where there is nobody to ask. -/
def lookupFailure (name : String) : String :=
  "failed to lookup address information: "
    ++ if name.isEmpty then "Name or service not known" else "Temporary failure in name resolution"

/-- A host that reaches nothing. The only name it knows is that of its own loopback. -/
def isolated : Network
  | .host name _ => .unreachable (if name = "localhost" then noRoute else lookupFailure name)
  | _ => .unreachable noRoute

end Network

def connect (network : Network) (address : String) (limit : Duration) : Except ConnectError Unit :=
  match Resolution.of address with
  | .invalidAddress => .error (.failed address "invalid socket address")
  | .invalidPort => .error (.failed address "invalid port value")
  | resolution =>
    match network resolution with
    | .reachable => .ok ()
    | .silent => .error (.timeout address limit)
    | .unreachable cause => .error (.failed address cause)

end Switchyard.Net
