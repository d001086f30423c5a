import Switchyard.Duration
import Switchyard.Rest.Request

/-! # REST failures

Every cause for which a request is not answered by its handler's own result, with the detail meant
for the operator and, apart from it, what the client may see.
-/
namespace Switchyard.Rest
set_option autoImplicit false

inductive Error where
  | badSyntax (cause : SyntaxError)
  | bindingNotFound (request : String)
  | duplicateBinding (binding : String)
  | alreadyAssociated (binding : String)
  | unassociated (binding : String)
  | inactive (subject : String)
  | decode (cause : String)
  | badRequest (external : String)
  | timeout (internal external : String) (limit : Duration)
  | externallyVisible (status : Nat) (internal external : String)
  | handling (cause : String)
  | protocol (cause : String)
deriving DecidableEq

namespace Error

def message : Error → String
  | badSyntax cause => cause.message
  | bindingNotFound request => s!"no binding matches {request}"
  | duplicateBinding binding => s!"binding {binding} is registered more than once"
  | alreadyAssociated binding => s!"handler for {binding} is already associated with a dispatcher"
  | unassociated binding => s!"handler for {binding} isn't associated with a dispatcher"
  | inactive subject => s!"{subject} isn't active"
  | decode cause => s!"unable to decode request content: {cause}"
  | badRequest external => s!"bad request: {external}"
  | timeout internal _ limit => s!"{internal} (timed out after {limit.text})"
  | externallyVisible _ internal _ => internal
  | handling cause => s!"request handling failed: {cause}"
  | protocol cause => s!"protocol violation: {cause}"

def status : Error → Nat
  | badSyntax _ | bindingNotFound _ | decode _ | badRequest _ => 400
  | timeout .. => 408
  | externallyVisible status _ _ => status
  | _ => 500

/-- What the client may be told; none for failures whose detail stays inside. -/
def external? : Error → Option String
  | badSyntax _ => some "Incorrect REST request syntax"
  | bindingNotFound _ => some "Unknown REST request"
  | decode _ => some "Unable to decode request content"
  | badRequest external | timeout _ external _ | externallyVisible _ _ external => some external
  | _ => none

/-- Whether the connection must close after the answer. -/
def isFatal : Error → Bool
  | protocol _ => true
  | _ => false

end Error
end Switchyard.Rest
