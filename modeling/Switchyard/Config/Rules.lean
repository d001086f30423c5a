import Switchyard.Config.Settings
import Switchyard.Net.Address

/-! # Rules for settings

Addresses have to be socket addresses, sizes and timeouts have to be positive, and the proxy must not
be its own back end. Every rule that is broken is reported, in the order of the sections.
-/
namespace Switchyard.Config
set_option autoImplicit false

/-- A rule broken by a field, which is named by its path. -/
structure Problem where
  field : String
  message : String
deriving DecidableEq, Repr

namespace Problem

def text (p : Problem) : String := s!"{p.field}: {p.message}"

end Problem

/-- What is asked of a field. -/
def require (holds : Bool) (field message : String) : List Problem :=
  if holds then [] else [⟨field, message⟩]

def requireAddress (field value : String) : List Problem :=
  require (Net.SocketAddress.parse? value).isSome field s!"'{value}' is not a socket address"

def requirePositive (field : String) (value : Nat) : List Problem :=
  require (0 < value) field "must be greater than zero"

def requireListener (field : String) (listener : ListenerSettings) : List Problem :=
  requireAddress (field ++ ".bind_address") listener.bindAddress
    ++ requirePositive (field ++ ".max_connections") listener.maxConnections

namespace Settings

def problems (s : Settings) : List Problem :=
  requireListener "control.listener" s.control.listener
    ++ requirePositive "control.post_response_workers" s.control.postResponseWorkers
    ++ requireListener "echo.listener" s.echo.listener
    ++ requireListener "proxy.listener" s.proxy.listener
    ++ requireAddress "proxy.backend_address" s.proxy.backendAddress
    ++ requirePositive "proxy.connect_timeout_ms" s.proxy.connectTimeoutMillis
    ++ requirePositive "proxy.buffer_size" s.proxy.bufferSize
    ++ require (s.proxy.listener.bindAddress != s.proxy.backendAddress) "proxy.backend_address"
      "must differ from the proxy listen address"
    ++ requireAddress "client.address" s.client.address
    ++ requirePositive "client.workers" s.client.workers
    ++ requirePositive "client.connect_timeout_ms" s.client.connectTimeoutMillis
    ++ requirePositive "client.eviction_interval_ms" s.client.evictionIntervalMillis
    ++ requirePositive "initiator.response_timeout_ms" s.initiator.responseTimeoutMillis
    ++ if s.observability.metricsEnabled then
        requireAddress "observability.metrics_address" s.observability.metricsAddress
      else []

/-- Where the metrics are shown, if they are. -/
def metricsAddress? (s : Settings) : Option Net.SocketAddress :=
  if s.observability.metricsEnabled then Net.SocketAddress.parse? s.observability.metricsAddress
  else none

def isAccepted (s : Settings) : Bool := s.problems.isEmpty

end Settings
end Switchyard.Config
