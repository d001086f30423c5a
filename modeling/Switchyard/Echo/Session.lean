import Switchyard.Bytes

/-! # Echo sessions

The back end's side of one connection: what has been read is written back before more is read.
-/
namespace Switchyard.Echo
set_option autoImplicit false

/-- `left` has what has been read and not written back. -/
structure Session where
  limit : Nat
  left : Bytes
  ended : Bool
deriving DecidableEq, Repr

namespace Session

def new (bufferSize : Nat) : Session := { limit := bufferSize, left := [], ended := false }

def isReading (s : Session) : Bool := !s.ended && s.left.isEmpty

/-- Bytes arrive; no bytes are the end. -/
def received (s : Session) (data : Bytes) : Session :=
  if s.isReading then
    if data.isEmpty then { s with ended := true } else { s with left := data.take s.limit }
  else s

def written (s : Session) (n : Nat) : Session :=
  if s.ended then s else { s with left := s.left.drop n }

def stop (s : Session) : Session := { s with ended := true }

end Session
end Switchyard.Echo
