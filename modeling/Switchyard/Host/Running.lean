import Switchyard.Config.Load
import Switchyard.Control.EchoBackend
import Switchyard.Control.ShutdownRequest
import Switchyard.Host.Arguments
import Switchyard.Rest.Server

/-! # Hosts

An application with its control server. The application is a server of its own or a client; the control
server takes the requests for it. A host ends when its control server has been asked to stop: first
the application is shut down, then the control server.
-/
namespace Switchyard.Host
open Rest
set_option autoImplicit false

inductive Component where
  | server (server : Net.Server)
  | client (client : Client.PooledClient Echo.Codec)

namespace Component

def ofSettings (s : Config.Settings) : Application → Component
  | .echo => .server (.ofSettings s.echo.name s.echo.listener)
  | .proxy => .server (.ofSettings s.proxy.name s.proxy.listener)
  | .initiator => .client (.ofSettings s.client .echo .empty)

def describe : Component → String
  | .server running => running.describe
  | .client sender => sender.describe

def localAddress? : Component → Option Net.SocketAddress
  | .server running => running.localAddress?
  | .client _ => none

/-- A client connects only when it has something to send. -/
def start (binder : Net.Binder) : Component → Except Net.ServerError Component
  | .server idle =>
    match idle.start binder with
    | (.ok _, running) => .ok (.server running)
    | (.error cause, _) => .error cause
  | .client sender => .ok (.client sender)

def shutdown : Component → Component
  | .server running => .server running.shutdown
  | .client sender => .client sender.shutdown

end Component

/-- What requests to the control server can change. -/
structure State where
  component : Component
  stopRequested : Bool

namespace State

def stop (s : State) : State := { s with stopRequested := true }

def shutdownComponent (s : State) : State := { s with component := s.component.shutdown }

def client (s : State) : Client.PooledClient Echo.Codec :=
  match s.component with
  | .client client => client
  | .server _ => .ofSettings {} .echo .empty

def withClient (client : Client.PooledClient Echo.Codec) (s : State) : State :=
  match s.component with
  | .client _ => { s with component := .client client }
  | .server _ => s

end State

def stoppedReason : Application → String
  | .echo => "Echo server was stopped. Shutdown command for control server is accepted"
  | .proxy => "Proxy server was stopped. Shutdown command for control server is accepted"
  | .initiator => "Client was stopped. Shutdown command for control server is accepted"

def shutdownHandler (application : Application) (component : Component) : Handler State :=
  Control.ShutdownRequest.handler (stoppedReason application)
    [⟨component.describe, State.shutdownComponent⟩]

def echoHandler (s : Config.Settings) (network : Net.Network) : Handler State :=
  Control.EchoRequest.handler
    (.pooled network s.clientConnectTimeout State.client State.withClient)
    ⟨s.responseTimeout, s.initiator.validateResponse⟩

/-- Only the initiator takes echo requests. -/
def handlers (s : Config.Settings) (network : Net.Network) (application : Application)
    (component : Component) : List (Handler State) :=
  match application with
  | .initiator => [echoHandler s network, shutdownHandler application component]
  | .echo | .proxy => [shutdownHandler application component]

inductive StartError where
  | setup (cause : SetupError)
  | server (cause : Net.ServerError)

/-- Why a host does not run. -/
inductive Failure where
  | settings (cause : Config.LoadError)
  | start (cause : StartError)

namespace Failure

/-- The status a host ends with; a breakdown has one of its own. -/
def exitCode : Failure → Nat
  | start (.setup .breakdown) | start (.server .breakdown) => 101
  | settings _ | start _ => 1

/-- What is complained about. -/
def complaint : Failure → String
  | settings cause => s!"Error: {cause.described}\n"
  | start (.setup (.handlers cause)) => s!"Error: {cause.message}\n"
  | start (.server (.bind address cause)) =>
    "Error: Listener(Bind \x7b address: " ++ Quoted.text address ++ ", source: " ++ cause.described
      ++ " \x7d)\n"
  | start (.server cause) => s!"Error: {cause.message}\n"
  | start (.setup .breakdown) => s!"Error: {Net.Slots.overflow}\n"

end Failure

structure Running where
  control : Rest.Server Bindings State
  state : State

/-- What is left to bind once the metrics have their address. They may fail to get it. -/
def besideMetrics (s : Config.Settings) (binder : Net.Binder) : Net.Binder :=
  match s.metricsAddress?.map binder with
  | some (.ok bound) => binder.besides bound
  | _ => binder

namespace Running

/-- The control server starts after the application. -/
def start (s : Config.Settings) (binder : Net.Binder) (network : Net.Network)
    (application : Application) : Except StartError Running := do
  let component := Component.ofSettings s application
  let control : Rest.Server Bindings State ← (Rest.Server.ofSettings s.control State.stop
    (handlers s network application component)).mapError StartError.setup
  let component ← (component.start binder).mapError StartError.server
  let left := (component.localAddress?.map binder.besides).getD binder
  match control.start left with
  | (.error cause, _) => .error (.server cause)
  | (.ok _, control) => .ok { control, state := { component, stopRequested := false } }

/-- Runs what has been asked for; `content` is that of the file its settings are in. -/
def launch (invocation : Invocation) (content : Option Bytes) (binder : Net.Binder)
    (network : Net.Network) : Except Failure Running := do
  let settings ← match invocation.config with
    | some _ => (Config.Settings.load content).mapError Failure.settings
    | none => .ok {}
  (Running.start settings (besideMetrics settings binder) network invocation.application).mapError
    Failure.start

/-- A request on a connection of its own; what it leaves to be done is done after the answer. -/
def serve (r : Running) (http : HttpRequest) : Response × Running :=
  let exchange : Exchange Bindings State :=
    { assembler := .empty, dispatcher := r.control.dispatcher, state := r.state
      afterwards := [], metrics := [] }
  let (response, exchange) := exchange.serve http
  let queued := exchange.afterwards.foldl (·.execute ·) r.control.postResponse
  let (state, postResponse) := queued.drain exchange.state
  (response, { control := { r.control with dispatcher := exchange.dispatcher, postResponse }, state })

/-- Gives a command to the control server; what it answers, as it is reported. -/
def obey (r : Running) (order : Order) : Control.Report × Running :=
  let (response, r) := r.serve {
    head := {
      method := order.command.method.name
      target := .parse (order.command.target order.base)
      headers := [] }
    frames := [] }
  (.ofAnswer response.status response.body, r)

/-- Whether requests are still taken. -/
def isUp (r : Running) : Bool := !r.state.stopRequested

def shutdown (r : Running) : Running :=
  let (control, state) := r.control.shutdown r.state.shutdownComponent
  { control, state }

end Running
end Switchyard.Host
