import Switchyard.Net.Address

/-! # Binding addresses

Where servers get their addresses from, and why they may not get one.
-/
namespace Switchyard.Net
set_option autoImplicit false

inductive BindFailure where
  | badAddress
  | inUse
  | unavailable
deriving DecidableEq, Repr

namespace BindFailure

def message : BindFailure → String
  | badAddress => "invalid socket address syntax"
  | inUse => "Address already in use (os error 98)"
  | unavailable => "Cannot assign requested address (os error 99)"

/-- The failure with its parts named. -/
def described : BindFailure → String
  | badAddress => "Custom \x7b kind: InvalidInput, error: AddrParseError(Socket) \x7d"
  | inUse => "Os \x7b code: 98, kind: AddrInUse, message: \"Address already in use\" \x7d"
  | unavailable =>
    "Os \x7b code: 99, kind: AddrNotAvailable, message: \"Cannot assign requested address\" \x7d"

end BindFailure

namespace SocketAddress

def portNumber : SocketAddress → Nat
  | v4 _ port => port
  | v6 _ _ port => port

/-- An address that stands for all addresses of its host. -/
def isUnspecified : SocketAddress → Bool
  | v4 octets _ => octets.all (· == 0)
  | v6 groups _ _ => groups.all (· == 0)

/-- Whether two servers cannot have the addresses at the same time. A port that is zero is chosen
afresh by each bind. An unspecified address of the longer kind stands for those of both kinds. -/
def collides (a b : SocketAddress) : Bool :=
  a.portNumber == b.portNumber && a.portNumber != 0 &&
    match a, b with
    | v4 x _, v4 y _ => x == y || a.isUnspecified || b.isUnspecified
    | v6 x _ _, v6 y _ _ => x == y || a.isUnspecified || b.isUnspecified
    | v4 .., v6 .. => b.isUnspecified
    | v6 .., v4 .. => a.isUnspecified

end SocketAddress

/-- How a host answers a bind. -/
abbrev Binder := SocketAddress → Except BindFailure SocketAddress

namespace Binder

/-- A host without interfaces. Every address of four octets can be bound there, and of the others the
unspecified one. -/
def isolated : Binder := fun address =>
  match address with
  | .v4 .. => .ok address
  | .v6 .. => if address.isUnspecified then .ok address else .error .unavailable

/-- A host on which the address is taken already. -/
def besides (binder : Binder) (taken : SocketAddress) : Binder := fun address =>
  if taken.collides address then .error .inUse else binder address

end Binder
end Switchyard.Net
