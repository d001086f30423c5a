import Switchyard.Client.Message
import Switchyard.Rest.Dispatcher
import Switchyard.Text.Utf8

/-! # The echo request

`POST /utf8string/` sends its one argument to an echo back end and reports what came back. A reply
that differs from what was sent is refused, and its connection is given up with it.
-/
namespace Switchyard.Control
open Rest
set_option autoImplicit false

/-- What the request needs of a client. -/
structure EchoClient (σ : Type) where
  send : Bytes → Duration → σ → Client.Outcome × σ
  abort : Net.ConnectionId → σ → σ

structure EchoPolicy where
  responseTimeout : Duration
  validateResponse : Bool
deriving DecidableEq, Repr

namespace EchoRequest
variable {σ : Type}

def argumentsRefused (binding : Request) : Error :=
  .badRequest s!"Request {binding.display}... must specify exactly one argument"

def noResponse : Error := .handling "echo back end sent no response"

def failure (cause : Client.Error) (timeout : Duration) : Error :=
  if cause.isTimeout then .timeout cause.message "Echo response timeout" timeout
  else .handling cause.message

def altered (payload : Bytes) (connection : Net.ConnectionId) : Error :=
  .externallyVisible 500
    s!"echo of {payload.length} bytes on {connection.text} came back altered"
    "Echo response is invalid"

def completed (reply : Bytes) : Outcome σ :=
  (Outcome.ofReason 200 "Echo completed")
    |>.field "response" (.string (Utf8.decodeLossy reply))
    |>.inLanguage "en"

def report (client : EchoClient σ) (policy : EchoPolicy) (payload : Bytes) (state : σ) :
    Client.Outcome → Ending σ × σ
  | .ok (some reply) =>
    if policy.validateResponse && reply.payload != payload then
      (.failure (altered payload reply.connection), client.abort reply.connection state)
    else (.result (completed reply.payload), state)
  | .ok none => (.failure noResponse, state)
  | .error cause => (.failure (failure cause policy.responseTimeout), state)

def answer (client : EchoClient σ) (policy : EchoPolicy) (context : Context σ) (state : σ) :
    Ending σ × σ :=
  match context.arguments with
  | [text] =>
    let payload := Utf8.encode text
    let (outcome, state) := client.send payload policy.responseTimeout state
    report client policy payload state outcome
  | _ => (.failure (argumentsRefused context.binding), state)

def logic (client : EchoClient σ) (policy : EchoPolicy) : Logic σ :=
  .ofFunction fun _ context state => answer client policy context state

def binding : Request := { method := .post, segments := [{
  raw := "utf8string"
  text := "utf8string"
  raw_ne_nil := by decide
  raw_chars := List.all_eq_true.mp (by decide +kernel)
  decodes := by decide +kernel }] }

def handler (client : EchoClient σ) (policy : EchoPolicy) : Handler σ :=
  .new binding (logic client policy)

end EchoRequest
end Switchyard.Control
