import Switchyard.Metrics
import Switchyard.Net.Connect

/-! # Proxy failures -/
namespace Switchyard.Proxy
open Net
set_option autoImplicit false

inductive Error where
  | connectTimeout (address : String) (limit : Duration)
  | connect (cause : ConnectError)
  | read (direction : Direction) (cause : String)
  | forward (direction : Direction) (cause : String)
deriving DecidableEq, Repr

namespace Error

def message : Error → String
  | connectTimeout address limit =>
    s!"back end {address} did not accept the connection within {limit.text}"
  | connect cause => cause.message
  | read direction cause => s!"reading {direction.label} failed: {cause}"
  | forward direction cause => s!"forwarding {direction.label} failed: {cause}"

def ofConnect : ConnectError → Error
  | .timeout address limit => connectTimeout address limit
  | cause => connect cause

end Error
end Switchyard.Proxy
