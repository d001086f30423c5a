import Switchyard.Lifecycle.Target
import Switchyard.Rest.Dispatcher

/-! # The shutdown request

`PUT /shutdown/` shuts the components of an application down in order, answers, and stops the server
that took the request only after the answer.
-/
namespace Switchyard.Control
open Lifecycle Rest
set_option autoImplicit false

namespace ShutdownRequest
variable {σ : Type}

def argumentsRefused (binding : Request) : Error :=
  .badRequest s!"Request {binding.display}... must not specify any arguments"

def accepted (reason : String) (targets : List (Target σ)) (control : ServerHandle σ) : Outcome σ :=
  (Outcome.ofReason 202 reason)
    |>.field "stopped" (.array (targets.map fun target => .string target.description))
    |>.inLanguage "en"
    |>.andThen control.stop

def answer (reason : String) (targets : List (Target σ)) (context : Context σ) (state : σ) :
    Ending σ × σ :=
  if !context.arguments.isEmpty then (.failure (argumentsRefused context.binding), state)
  else
    match context.server with
    | .error cause => (.failure cause, state)
    | .ok control =>
      (.result (accepted reason targets control), shutdownAll targets state)

def logic (reason : String) (targets : List (Target σ)) : Logic σ :=
  .ofFunction fun _ context state => answer reason targets context state

def binding : Request := { method := .put, segments := [{
  raw := "shutdown"
  text := "shutdown"
  raw_ne_nil := by decide
  raw_chars := List.all_eq_true.mp (by decide +kernel)
  decodes := by decide +kernel }] }

def handler (reason : String) (targets : List (Target σ)) : Handler σ :=
  .new binding (logic reason targets)

end ShutdownRequest
end Switchyard.Control
