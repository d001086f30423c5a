import Switchyard.Rest.Outcome

/-! # Handlers

A handler is application logic under a binding. The logic works on the state `σ` of its application
and may crash, before it has begun its work or in the middle of it; a crash is answered like a
failure. A handler is active until it is shut down, and can be associated with one dispatcher.
-/
namespace Switchyard.Rest
set_option autoImplicit false

/-- Names a server and can ask it to stop. -/
structure ServerHandle (σ : Type) where
  name : String
  stop : σ → σ

/-- What a handler's logic sees besides the request. -/
structure Context (σ : Type) where
  binding : Request
  arguments : List String
  server? : Option (ServerHandle σ)

def unassociated (binding : Request) : Error := .unassociated binding.display

namespace Context
variable {σ : Type}

def server (context : Context σ) : Except Error (ServerHandle σ) :=
  match context.server? with
  | some server => .ok server
  | none => .error (unassociated context.binding)

end Context

/-- The crash of some logic, with the text it left if any. -/
structure Crash where
  text? : Option String
deriving DecidableEq, Repr

namespace Crash

def message (crash : Crash) : String := crash.text?.getD "unknown panic"

end Crash

/-- How the work on one request ends. -/
inductive Ending (σ : Type) where
  | result (outcome : Outcome σ)
  | failure (cause : Error)
  | crash (cause : Crash)

/-- What becomes of a request when it is handed to the logic. -/
inductive Reception (σ : Type) where
  | crash (cause : Crash)
  | work (finish : σ → Ending σ × σ)

structure Logic (σ : Type) where
  receive : Request → Context σ → σ → Reception σ × σ
  onShutdown : σ → Option Crash × σ

namespace Logic
variable {σ : Type}

/-- Logic that answers from the state alone and has nothing to do at shutdown. -/
def ofFunction (answer : Request → Context σ → σ → Ending σ × σ) : Logic σ where
  receive request context state := (.work (answer request context), state)
  onShutdown state := (none, state)

end Logic

structure Handler (σ : Type) where
  binding : Request
  logic : Logic σ
  server? : Option (ServerHandle σ)
  active : Bool

namespace Handler
variable {σ : Type}

def new (binding : Request) (logic : Logic σ) : Handler σ :=
  { binding, logic, server? := none, active := true }

def isAssociated (h : Handler σ) : Bool := h.server?.isSome

def inactive (h : Handler σ) : Error := .inactive s!"handler {h.binding.display}"

def server (h : Handler σ) : Except Error (ServerHandle σ) :=
  match h.server? with
  | some server => .ok server
  | none => .error (unassociated h.binding)

def associate (h : Handler σ) (server : ServerHandle σ) : Except Error (Handler σ) :=
  if !h.active then .error h.inactive
  else if h.isAssociated then .error (.alreadyAssociated h.binding.display)
  else .ok { h with server? := some server }

def arguments (h : Handler σ) (request : Request) : List String :=
  request.nodesAfter h.binding.depth

def context (h : Handler σ) (request : Request) : Context σ :=
  { binding := h.binding, arguments := h.arguments request, server? := h.server? }

def crashed (h : Handler σ) (crash : Crash) : Error :=
  .handling s!"handler for {h.binding.display} panicked: {crash.message}"

def settle (h : Handler σ) : Ending σ → Except Error (Outcome σ)
  | .result outcome => .ok outcome
  | .failure cause => .error cause
  | .crash cause => .error (h.crashed cause)

def handle (h : Handler σ) (request : Request) (state : σ) : Except Error (Outcome σ) × σ :=
  if !h.active then (.error h.inactive, state)
  else
    match h.logic.receive request (h.context request) state with
    | (.crash cause, state) => (.error (h.crashed cause), state)
    | (.work finish, state) =>
      let (ending, state) := finish state
      (h.settle ending, state)

/-- The first shutdown runs the hook of the logic, and a crash in there changes nothing more. -/
def shutdown (h : Handler σ) (state : σ) : Handler σ × σ :=
  if h.active then ({ h with active := false }, (h.logic.onShutdown state).2) else (h, state)

/-- The handler as operators see it. -/
def described (h : Handler σ) : String :=
  "Handler \x7b binding: " ++ Quoted.text h.binding.display
    ++ ", associated: " ++ toString h.isAssociated ++ ", active: " ++ toString h.active ++ " \x7d"

end Handler
end Switchyard.Rest
