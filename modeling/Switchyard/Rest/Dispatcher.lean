import Switchyard.Rest.Bindings
import Switchyard.Rest.Handler

/-! # Dispatchers

A dispatcher hands each request to the handler whose binding is the longest prefix of it. Its
handlers keep the order in which they were given; the index finds them by their positions.
-/
namespace Switchyard.Rest
set_option autoImplicit false

structure Dispatcher (ι : Type → Type) (σ : Type) where
  server : ServerHandle σ
  handlers : List (Handler σ)
  index : ι Nat
  active : Bool

namespace Dispatcher
variable {ι : Type → Type} [BindingIndex ι] {σ : Type}

/-- Registers every handler under its binding. -/
def register (handlers : List (Handler σ)) : Except Error (ι Nat) :=
  (handlers.zipIdx).foldlM (fun index (handler, position) =>
    BindingIndex.insert index handler.binding position) BindingIndex.empty

/-- Associates the handlers at the given positions with a server, one after the other. -/
def associate (server : ServerHandle σ) (positions : List Nat) (handlers : List (Handler σ)) :
    Except Error (List (Handler σ)) :=
  positions.foldlM (fun handlers position =>
    match handlers[position]? with
    | some handler => do return handlers.set position (← handler.associate server)
    | none => .ok handlers) handlers

def new (server : ServerHandle σ) (handlers : List (Handler σ)) : Except Error (Dispatcher ι σ) := do
  let index : ι Nat ← register handlers
  let handlers ← associate server (BindingIndex.values index) handlers
  return { server, handlers, index, active := true }

def size (d : Dispatcher ι σ) : Nat := BindingIndex.size d.index

def find? (d : Dispatcher ι σ) (request : Request) : Option (Handler σ) :=
  (BindingIndex.find? d.index request).bind (d.handlers[·]?)

def inactive (d : Dispatcher ι σ) : Error := .inactive s!"dispatcher of {d.server.name}"

def dispatch (d : Dispatcher ι σ) (request : Request) (state : σ) :
    Except Error (Outcome σ) × σ :=
  if !d.active then (.error d.inactive, state)
  else
    match d.find? request with
    | some handler => handler.handle request state
    | none => (.error (.bindingNotFound request.display), state)

/-- Shuts down the handler at one position. -/
def shutdownAt (d : Dispatcher ι σ) (position : Nat) (state : σ) : Dispatcher ι σ × σ :=
  match d.handlers[position]? with
  | some handler =>
    let (handler, state) := handler.shutdown state
    ({ d with handlers := d.handlers.set position handler }, state)
  | none => (d, state)

/-- The first shutdown shuts down every handler, in the order of the index. -/
def shutdown (d : Dispatcher ι σ) (state : σ) : Dispatcher ι σ × σ :=
  if d.active then
    (BindingIndex.values d.index).foldl (fun (d, state) position => d.shutdownAt position state)
      ({ d with active := false }, state)
  else (d, state)

end Dispatcher
end Switchyard.Rest
