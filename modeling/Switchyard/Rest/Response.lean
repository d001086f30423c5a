import Switchyard.Json.Value
import Switchyard.Rest.Error

/-! # HTTP answers

The answer to a request: a JSON body, or an empty one, under the content type of this interface.
A failure is answered by its reason alone, and without detail if there is nothing the client may
be told.
-/
namespace Switchyard.Rest
set_option autoImplicit false

structure Response where
  status : Nat
  headers : List (String × String)
  body : String
deriving DecidableEq, Repr

namespace Response

def json (status : Nat) (body : String) : Response :=
  { status, headers := [("content-type", "application/json; charset=utf-8")], body }

def withHeader (response : Response) (name value : String) : Response :=
  { response with headers := response.headers.filter (·.1 != name) ++ [(name, value)] }

/-- Marks a response as the last one on its connection. -/
def closing (response : Response) : Response := response.withHeader "connection" "close"

def isClosing (response : Response) : Bool := response.headers.contains ("connection", "close")

end Response

def reasonField : String := "httpReasonPhrase"

def internalErrorReason : String := "Internal server error"

namespace Error

/-- The answer to a failed request, whose connection may go on. -/
def answer (e : Error) : Response :=
  let reason := e.external?.getD internalErrorReason
  .json e.status (Json.Value.object [(reasonField, .string reason)]).compact

/-- The answer to a failed request; a fatal failure closes the connection. -/
def failureAnswer (e : Error) : Response :=
  if e.isFatal then e.answer.closing else e.answer

end Error
end Switchyard.Rest
