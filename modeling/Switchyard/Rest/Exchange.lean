import Switchyard.Metrics
import Switchyard.Rest.Assembly
import Switchyard.Rest.Dispatcher

/-! # Exchanges

One HTTP request is served by assembling it from its head and its body, dispatching it, and answering
it, whatever comes of it. A peer that waits for leave to send its body gets it when the body is asked
for.
-/
namespace Switchyard.Rest
set_option autoImplicit false

/-- A piece of a body as it comes from the wire. -/
inductive Frame where
  | data (data : Bytes)
  | trailers
  | failure (cause : String)
deriving DecidableEq, Repr

structure HttpRequest where
  head : Head
  frames : List Frame

/-- What one connection shares between its requests, and what the server shares between its
connections. -/
structure Exchange (ι : Type → Type) (σ : Type) where
  assembler : Assembler
  dispatcher : Dispatcher ι σ
  state : σ
  afterwards : List (σ → σ)
  metrics : Metrics

namespace Exchange
variable {ι : Type → Type} [BindingIndex ι] {σ : Type}

def feed (x : Exchange ι σ) (event : HttpEvent) : AssemblyAction × Exchange ι σ :=
  let (action, assembler) := x.assembler.onEvent event
  (action, { x with assembler })

/-- Feeds the pieces of a body until the assembler has made up its mind. -/
def feedBody (x : Exchange ι σ) (action : AssemblyAction) : List Frame → AssemblyAction × Exchange ι σ
  | [] =>
    match action with
    | .pending => x.feed .finish
    | action => (action, x)
  | frame :: rest =>
    match action with
    | .pending =>
      match frame with
      | .data data =>
        let (action, x) := x.feed (.chunk data)
        feedBody x action rest
      | .trailers => feedBody x .pending rest
      | .failure cause =>
        let (action, x) := x.feed (.decodeFailure cause)
        feedBody x action rest
    | action => (action, x)

/-- The head is fed a second time once leave to send the body has been given. -/
def feedHead (x : Exchange ι σ) (head : Head) : AssemblyAction × Exchange ι σ :=
  match x.feed (.head head) with
  | (.continue, x) => x.feed (.head head.withoutExpectation)
  | result => result

def assemble (x : Exchange ι σ) (http : HttpRequest) : AssemblyAction × Exchange ι σ :=
  let (action, x) := x.feedHead http.head
  x.feedBody action http.frames

def dispatch (x : Exchange ι σ) (request : Request) : Response × Exchange ι σ :=
  let (result, state) := x.dispatcher.dispatch request x.state
  let x := { x with state, assembler := x.assembler.finish }
  match result with
  | .ok outcome => (outcome.response, { x with afterwards := x.afterwards ++ outcome.afterwards.toList })
  | .error cause => (cause.answer, x)

def unfinished : Error := .protocol "request assembly did not finish"

def respond (x : Exchange ι σ) : AssemblyAction → Response × Exchange ι σ
  | .emit assembled => x.dispatch assembled.request
  | .reject cause | .fatal cause => (cause.failureAnswer, x)
  | .pending | .continue => (unfinished.failureAnswer, x)

def serve (x : Exchange ι σ) (http : HttpRequest) : Response × Exchange ι σ :=
  let (action, x) := x.assemble http
  let (response, x) := x.respond action
  (response, { x with metrics := x.metrics.count (.responses response.status) })

end Exchange
end Switchyard.Rest
