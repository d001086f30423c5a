import Switchyard.Bytes
import Switchyard.Rest.Error
import Switchyard.Rest.Target

/-! # Request assembly

The head of an HTTP request, the pieces of its body and the end of it are put together to one
request. A connection assembles or handles one request at a time.
-/
namespace Switchyard.Rest
set_option autoImplicit false

structure Head where
  method : String
  target : Target
  headers : List (String × String)
deriving DecidableEq, Repr

namespace Head

def lowerAscii (s : String) : List Char := s.toList.map Char.toLower

def isExpect (header : String × String) : Bool := lowerAscii header.1 == "expect".toList

/-- Whether the peer waits for leave to send its body; the first expectation counts. -/
def expectsContinue (head : Head) : Bool :=
  (head.headers.find? isExpect).any fun header => lowerAscii header.2 == "100-continue".toList

/-- The head once leave has been given. -/
def withoutExpectation (head : Head) : Head :=
  { head with headers := head.headers.filter (!isExpect ·) }

theorem expectsContinue_withoutExpectation (head : Head) :
    head.withoutExpectation.expectsContinue = false := by
  rw [expectsContinue, List.find?_eq_none.mpr]
  · rfl
  · intro header h
    simpa using (List.mem_filter.mp h).2

def request (head : Head) : Except SyntaxError Request :=
  Request.ofParts head.method head.target.path

end Head

inductive HttpEvent where
  | head (head : Head)
  | chunk (data : Bytes)
  | finish
  | decodeFailure (cause : String)

/-- A request as it arrived and as it is routed. -/
structure AssembledRequest where
  head : Head
  body : Bytes
  request : Request
deriving DecidableEq

inductive AssemblyAction where
  | pending
  | «continue»
  | reject (cause : Error)
  | emit (assembled : AssembledRequest)
  | fatal (cause : Error)

/-- How far the current request has come. -/
inductive Stage where
  | idle
  | headersReceived
  | bodyAccumulating
  | complete
deriving DecidableEq, Repr

def Stage.name : Stage → String
  | idle => "Idle"
  | headersReceived => "HeadersReceived"
  | bodyAccumulating => "BodyAccumulating"
  | complete => "Complete"

structure Assembler where
  stage : Stage
  pending : Option (Head × Request)
  body : Bytes

namespace Assembler

def empty : Assembler := { stage := .idle, pending := none, body := [] }

def overlapping (stage : Stage) (head : Head) : Error :=
  .protocol s!"request {head.method} {head.target.text} started while the previous one is {stage.name}"

def strayContent (stage : Stage) : Error :=
  .protocol s!"request content received while {stage.name}"

def strayEnd (stage : Stage) : Error :=
  .protocol s!"end of request content received while {stage.name}"

/-- A head is accepted when nothing is under way and the peer does not wait for leave first. -/
def onHead (a : Assembler) (head : Head) : AssemblyAction × Assembler :=
  match a.stage with
  | .idle =>
    if head.expectsContinue then (.continue, a)
    else
      match head.request with
      | .ok request => (.pending, { a with stage := .headersReceived, pending := some (head, request) })
      | .error cause => (.reject (.badSyntax cause), empty)
  | stage => (.fatal (overlapping stage head), empty)

def onChunk (a : Assembler) (data : Bytes) : AssemblyAction × Assembler :=
  match a.stage with
  | .headersReceived | .bodyAccumulating =>
    (.pending, { a with stage := .bodyAccumulating, body := a.body ++ data })
  | stage => (.fatal (strayContent stage), empty)

def onFinish (a : Assembler) : AssemblyAction × Assembler :=
  match a.stage, a.pending with
  | .headersReceived, some (head, request) | .bodyAccumulating, some (head, request) =>
    (.emit { head, body := a.body, request }, { stage := .complete, pending := none, body := [] })
  | stage, _ => (.fatal (strayEnd stage), empty)

def onEvent (a : Assembler) : HttpEvent → AssemblyAction × Assembler
  | .head head => a.onHead head
  | .chunk data => a.onChunk data
  | .finish => a.onFinish
  | .decodeFailure cause => (.reject (.decode cause), empty)

/-- The emitted request has been answered. -/
def finish (a : Assembler) : Assembler :=
  if a.stage = .complete then { a with stage := .idle } else a

/-- The connection is gone, and with it whatever was under way. -/
def connectionInactive (_ : Assembler) : Assembler := empty

end Assembler
end Switchyard.Rest
