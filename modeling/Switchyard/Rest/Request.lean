import Switchyard.Rest.Method
import Switchyard.Rest.Path
import Switchyard.Text.Quoted

/-! # REST requests

A request is a method and the segments of a path. Its routing key is the method and the path as
written, so an escaped slash inside a segment never meets a slash between two.
-/
namespace Switchyard.Rest
set_option autoImplicit false

inductive SyntaxError where
  | shape (text : String)
  | method (name : String)
  | relative (uri : String)
  | illegalCharacter (uri : String) (c : Char)
  | escape (uri : String)
  | encoding (uri : String)
deriving DecidableEq

namespace SyntaxError

def message : SyntaxError → String
  | shape text => s!"'{text}' must contain exactly one space separating the method from the URI"
  | method name => s!"unknown REST method '{name}'"
  | relative uri => s!"URI '{uri}' must start with '/'"
  | illegalCharacter uri c => s!"URI '{uri}' contains illegal character " ++ Quoted.char c
  | escape uri => s!"URI '{uri}' contains a malformed percent escape"
  | encoding uri => s!"URI '{uri}' does not decode to UTF-8"

def ofFault (uri : String) : Segment.Fault → SyntaxError
  | .escape => escape uri
  | .encoding => encoding uri

end SyntaxError

structure Request where
  method : Method
  segments : List Segment
deriving DecidableEq

namespace Request

def depth (r : Request) : Nat := r.segments.length

def isRoot (r : Request) : Bool := r.segments.isEmpty

/-- Segments as written; the root has a single empty one. -/
def rawNodes (r : Request) : List String :=
  if r.isRoot then [""] else r.segments.map (·.raw)

/-- Segments decoded; the root has a single empty one. -/
def nodes (r : Request) : List String :=
  if r.isRoot then [""] else r.segments.map (·.text)

def rawPath (r : Request) : String := joinPath (r.segments.map (·.raw))

def path (r : Request) : String := joinPath (r.segments.map (·.text))

/-- The routing key. -/
def key (r : Request) : String := r.method.name ++ " " ++ r.rawPath

def display (r : Request) : String := r.method.name ++ " " ++ r.path

/-- Decoded segments beyond the first `depth` ones. -/
def nodesAfter (r : Request) (depth : Nat) : List String :=
  (r.segments.drop depth).map (·.text)

def isPrefixOf (a b : Request) : Bool :=
  a.method == b.method && a.segments.isPrefixOf b.segments

/-- The routing keys of all ancestors, longest first, as cut from this request's own key. -/
def prefixKeys (r : Request) : List String :=
  (slashCuts r.rawPath.toList).reverse.map fun cut => r.method.name ++ " " ++ String.ofList cut

instance : Ord Request := ⟨fun a b => compare a.key b.key⟩

instance : Hashable Request := ⟨fun r => hash r.key⟩

def readSegments (uri : String) (hLegal : (pathPart uri.toList).find? isIllegal = none) :
    Except SyntaxError (List Segment) :=
  (writtenSegments (pathPart uri.toList)).attach.mapM fun ⟨written, h⟩ =>
    (Segment.read written (isSegment_of_mem hLegal h)).mapError (SyntaxError.ofFault uri)

def ofTarget (method : Method) (uri : String) : Except SyntaxError Request :=
  if uri.toList.head? = some '/' then
    match hLegal : (pathPart uri.toList).find? isIllegal with
    | some c => .error (.illegalCharacter uri c)
    | none => (readSegments uri hLegal).map fun segments => { method, segments }
  else .error (.relative uri)

def ofParts (method uri : String) : Except SyntaxError Request :=
  match Method.ofName? method with
  | none => .error (.method method)
  | some known => ofTarget known uri

/-- Reads a method and a target with exactly one space between them. -/
def parse (text : String) : Except SyntaxError Request :=
  match text.toList.splitOn ' ' with
  | [method, uri] => ofParts (String.ofList method) (String.ofList uri)
  | _ => .error (.shape text)

end Request
end Switchyard.Rest
