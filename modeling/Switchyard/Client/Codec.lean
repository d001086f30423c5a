import Switchyard.Bytes
import Switchyard.Echo.Codec

/-! # Framing of a client connection

How payloads become bytes and bytes become replies. A codec may keep a state of its own between the
frames.
-/
namespace Switchyard.Client
set_option autoImplicit false

/-- A reply cut from the front of the bytes read, with what is left and the state after it. -/
abbrev Decoded (γ : Type) := Except String (Option (Bytes × Bytes × γ))

structure Codec (γ : Type) where
  encode : γ → Bytes → Except String (Bytes × γ)
  decode : γ → Bytes → Decoded γ
  decodeEnd : γ → Bytes → Decoded γ

namespace Codec

def echo : Codec Echo.Codec where
  encode codec payload := (codec.encode payload).mapError (·.message)
  decode codec buffer := (codec.decode buffer).mapError (·.message)
  decodeEnd codec buffer := (codec.decodeEnd buffer).mapError (·.message)

def isPrefix (word : String) (data : Bytes) : Bool := word.toUTF8.toList.isPrefixOf data

/-- A line that some peers send to be refused. -/
def checkLine (line rest : Bytes) : Decoded Unit :=
  if isPrefix "!bad" line then .error "bad line" else .ok (some (line, rest, ()))

/-- Payloads and replies on lines of their own. Payloads and replies with a certain beginning are
refused. -/
def lines : Codec Unit where
  encode _ payload :=
    if isPrefix "!refuse" payload then .error "encoding refused" else .ok (payload ++ [10], ())
  decode _ buffer :=
    let line := buffer.takeWhile (· != 10)
    if line.length = buffer.length then .ok none
    else checkLine line (buffer.drop (line.length + 1))
  decodeEnd _ buffer :=
    let line := buffer.takeWhile (· != 10)
    if buffer.isEmpty then .ok none
    else if line.length = buffer.length then .error "bytes remaining on stream"
    else checkLine line (buffer.drop (line.length + 1))

end Codec
end Switchyard.Client
