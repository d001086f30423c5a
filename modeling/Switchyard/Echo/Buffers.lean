import Switchyard.Echo.Codec

/-! # A codec with its buffers

Payloads are encoded into one buffer, and replies are decoded from another, into which bytes come from
outside. A call that fails, or finds no reply, leaves everything as it is.
-/
namespace Switchyard.Echo
set_option autoImplicit false

/-- `wire` has what is to be written, `unread` what has come and has not been decoded. -/
structure Buffers where
  codec : Codec
  wire : Bytes
  unread : Bytes
deriving DecidableEq, Repr

inductive Call where
  | encode (payload : Bytes)
  | feed (bytes : Bytes)
  | decode
  | decodeEnd
deriving DecidableEq, Repr

namespace Buffers

def empty : Buffers := { codec := .empty, wire := [], unread := [] }

def found (b : Buffers) :
    Except CodecError (Option (Bytes × Bytes × Codec)) → Except CodecError (Option Bytes) × Buffers
  | .ok (some (frame, unread, codec)) => (.ok (some frame), { b with unread, codec })
  | .ok none => (.ok none, b)
  | .error cause => (.error cause, b)

/-- The answer to a call is a reply, if it has found one. -/
def call (b : Buffers) : Call → Except CodecError (Option Bytes) × Buffers
  | .encode payload =>
    match b.codec.encode payload with
    | .ok (bytes, codec) => (.ok none, { b with codec, wire := b.wire ++ bytes })
    | .error cause => (.error cause, b)
  | .feed bytes => (.ok none, { b with unread := b.unread ++ bytes })
  | .decode => b.found (b.codec.decode b.unread)
  | .decodeEnd => b.found (b.codec.decodeEnd b.unread)

end Buffers
end Switchyard.Echo
