import Switchyard.Bytes

/-! # Echo framing

A peer that sends back whatever it gets has no framing of its own. The codec therefore keeps the
lengths of the payloads it has written and cuts the replies by them, in order.
-/
namespace Switchyard.Echo
set_option autoImplicit false

inductive CodecError where
  | emptyPayload
  | unexpectedBytes (count : Nat)
  | missingBytes (count : Nat)
deriving DecidableEq, Repr

def CodecError.message : CodecError → String
  | emptyPayload => "echo payload must not be empty"
  | unexpectedBytes count => s!"no bytes were expected, but {count} arrived"
  | missingBytes count => s!"{count} more bytes were expected"

/-- Lengths of the replies still to come, the next one first. -/
structure Codec where
  expected : List Nat
deriving DecidableEq, Repr

namespace Codec

def empty : Codec := ⟨[]⟩

def pending (c : Codec) : Nat := c.expected.length

/-- The bytes to write for a payload. -/
def encode (c : Codec) (payload : Bytes) : Except CodecError (Bytes × Codec) :=
  if payload.isEmpty then .error .emptyPayload
  else .ok (payload, ⟨c.expected ++ [payload.length]⟩)

/-- The next reply and what is left of the bytes, once all of the reply has arrived. -/
def decode (c : Codec) (buffer : Bytes) : Except CodecError (Option (Bytes × Bytes × Codec)) :=
  match c.expected with
  | length :: rest =>
    if length ≤ buffer.length then .ok (some (buffer.take length, buffer.drop length, ⟨rest⟩))
    else .ok none
  | [] => if buffer.isEmpty then .ok none else .error (.unexpectedBytes buffer.length)

/-- As `decode` when no more bytes will come; a reply of which only a part has arrived is a failure. -/
def decodeEnd (c : Codec) (buffer : Bytes) : Except CodecError (Option (Bytes × Bytes × Codec)) := do
  match ← c.decode buffer with
  | some reply => return some reply
  | none =>
    if buffer.isEmpty then return none
    else throw (.missingBytes ((c.expected.head?.map (· - buffer.length)).getD 0))

end Codec
end Switchyard.Echo
