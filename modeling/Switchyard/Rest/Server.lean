import Switchyard.Net.Server
import Switchyard.Rest.Exchange
import Switchyard.Rest.PostResponse

/-! # REST servers

A server whose connections are served by one dispatcher, with the work left for the time after the
responses. Its shutdown shuts the dispatcher down and then waits for that work.
-/
namespace Switchyard.Rest
set_option autoImplicit false

/-- Why a server could not be set up. `breakdown` is what becomes of asking for too many workers. -/
inductive SetupError where
  | handlers (cause : Error)
  | breakdown

structure Server (ι : Type → Type) (σ : Type) where
  server : Net.Server
  dispatcher : Dispatcher ι σ
  postResponse : PostResponse σ

namespace Server
variable {ι : Type → Type} [BindingIndex ι] {σ : Type}

/-- Registers the handlers; `stop` is how the application asks the server to stop. -/
def new (name bindAddress : String) (maxConnections workers : Nat) (stop : σ → σ)
    (handlers : List (Handler σ)) : Except SetupError (Server ι σ) :=
  match Dispatcher.new ⟨name, stop⟩ handlers with
  | .error cause => .error (.handlers cause)
  | .ok dispatcher =>
    if PostResponse.fit workers then
      .ok { server := .new name bindAddress maxConnections, dispatcher, postResponse := .new workers }
    else .error .breakdown

def ofSettings (s : Config.ControlSettings) (stop : σ → σ) (handlers : List (Handler σ)) :
    Except SetupError (Server ι σ) :=
  Server.new s.name s.listener.bindAddress s.listener.maxConnections s.postResponseWorkers stop handlers

def describe (s : Server ι σ) : String := s!"REST server {s.server.name}"

def start (s : Server ι σ) (binder : Net.Binder) :
    Except Net.ServerError Net.SocketAddress × Server ι σ :=
  let (result, server) := s.server.start binder
  (result, { s with server })

def shutdown (s : Server ι σ) (state : σ) : Server ι σ × σ :=
  if s.server.isActive then
    let (dispatcher, state) := s.dispatcher.shutdown state
    let (state, postResponse) := s.postResponse.close.drain state
    ({ server := s.server.shutdown, dispatcher, postResponse }, state)
  else (s, state)

end Server
end Switchyard.Rest
