import Switchyard.Duration

/-! # Settings

Everything an application can be told, with what holds when it is told nothing.
-/
namespace Switchyard.Config
set_option autoImplicit false

structure ListenerSettings where
  bindAddress : String := "127.0.0.1:0"
  maxConnections : Nat := 1024
deriving DecidableEq, Repr

structure ControlSettings where
  name : String := "control"
  listener : ListenerSettings := { bindAddress := "127.0.0.1:8081" }
  postResponseWorkers : Nat := 2
deriving DecidableEq, Repr

structure EchoSettings where
  name : String := "echo"
  listener : ListenerSettings := { bindAddress := "127.0.0.1:9000" }
deriving DecidableEq, Repr

structure ProxySettings where
  name : String := "proxy"
  listener : ListenerSettings := { bindAddress := "127.0.0.1:9100" }
  backendAddress : String := "127.0.0.1:9000"
  connectTimeoutMillis : Nat := 1000
  bufferSize : Nat := 8192
deriving DecidableEq, Repr

/-- As many connections are kept as there are workers. -/
structure ClientSettings where
  name : String := "client"
  address : String := "127.0.0.1:9000"
  workers : Nat := 4
  connectTimeoutMillis : Nat := 1000
  minEvictableIdleMillis : Nat := 30000
  evictionIntervalMillis : Nat := 30000
deriving DecidableEq, Repr

structure InitiatorSettings where
  responseTimeoutMillis : Nat := 1000
  validateResponse : Bool := true
deriving DecidableEq, Repr

structure ShutdownSettings where
  terminationTimeoutSecs : Nat := 10
deriving DecidableEq, Repr

inductive LogFormat where
  | pretty
  | json
deriving DecidableEq, Repr

structure ObservabilitySettings where
  logLevel : String := "info"
  logFormat : LogFormat := .pretty
  metricsEnabled : Bool := false
  metricsAddress : String := "127.0.0.1:9090"
deriving DecidableEq, Repr

structure Settings where
  control : ControlSettings := {}
  echo : EchoSettings := {}
  proxy : ProxySettings := {}
  client : ClientSettings := {}
  initiator : InitiatorSettings := {}
  shutdown : ShutdownSettings := {}
  observability : ObservabilitySettings := {}
deriving DecidableEq, Repr

namespace Settings

def proxyConnectTimeout (s : Settings) : Duration := .ofMillis s.proxy.connectTimeoutMillis
def clientConnectTimeout (s : Settings) : Duration := .ofMillis s.client.connectTimeoutMillis
def minEvictableIdle (s : Settings) : Duration := .ofMillis s.client.minEvictableIdleMillis
def evictionInterval (s : Settings) : Duration := .ofMillis s.client.evictionIntervalMillis
def responseTimeout (s : Settings) : Duration := .ofMillis s.initiator.responseTimeoutMillis
def terminationTimeout (s : Settings) : Duration := .ofSecs s.shutdown.terminationTimeoutSecs

/-- The durations by their names. -/
def durations (s : Settings) : List (String × Duration) :=
  [("client.connect_timeout", s.clientConnectTimeout),
    ("client.eviction_interval", s.evictionInterval),
    ("client.min_evictable_idle", s.minEvictableIdle),
    ("initiator.response_timeout", s.responseTimeout),
    ("proxy.connect_timeout", s.proxyConnectTimeout),
    ("shutdown.termination_timeout", s.terminationTimeout)]

end Settings
end Switchyard.Config
