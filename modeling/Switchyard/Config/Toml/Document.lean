/-! # TOML documents

The tree of a document while it is read. A table is given once: by a header, between braces, or by
dotted keys. Headers may pass through any table but one between braces, and the last table of an array
stands for the array. A dotted key may pass only through tables that no header has given, and may add
a key only to a table that dotted keys have made.
-/
namespace Switchyard.Config.Toml
set_option autoImplicit false

/-- How a table came to be: between braces, by its own header, on the way of a header, or on the way of
a dotted key. -/
inductive Origin where
  | braces
  | header
  | passage
  | dotted
deriving DecidableEq, Repr

/-- Floats and dates are told apart from the rest, but their values are of no use to anyone here. -/
inductive Node where
  | text (s : String)
  | integer (n : Int)
  | boolean (b : Bool)
  | float
  | date
  | array (items : List Node)
  | table (origin : Origin) (members : List (String × Node))
  | tables (elements : List (List (String × Node)))
deriving Inhabited

abbrev Members := List (String × Node)

namespace Members

def get? (members : Members) (key : String) : Option Node :=
  (members.find? (·.1 == key)).map (·.2)

/-- Replaces a member, or adds it at the end. -/
def set (key : String) (node : Node) : Members → Members
  | [] => [(key, node)]
  | member :: rest =>
    if member.1 = key then (key, node) :: rest else member :: set key node rest

/-- Changes the table that the keys of a header lead to, and makes those on the way that are not
there. -/
def alter? (change : Members → Option Members) : List String → Members → Option Members
  | [], members => change members
  | key :: rest, members =>
    match members.get? key with
    | none => (alter? change rest []).map fun inner => members.set key (.table .passage inner)
    | some (.table origin inner) =>
      if origin = .braces then none
      else (alter? change rest inner).map fun inner => members.set key (.table origin inner)
    | some (.tables elements) =>
      match elements.getLast? with
      | some last =>
        (alter? change rest last).map fun last => members.set key (.tables (elements.dropLast ++ [last]))
      | none => none
    | some _ => none

/-- Whether a dotted key may pass through a table, which is its last one when `last` is set. -/
def isOpen (last : Bool) : Origin → Bool
  | .dotted => true
  | .passage => !last
  | .header | .braces => false

/-- Adds a value under a key that may be dotted. -/
def insert? (value : Node) : List String → Members → Option Members
  | [], _ => none
  | [key], members => if (members.get? key).isSome then none else some (members ++ [(key, value)])
  | key :: next :: rest, members =>
    match members.get? key with
    | none =>
      (insert? value (next :: rest) []).map fun inner => members ++ [(key, .table .dotted inner)]
    | some (.table origin inner) =>
      if isOpen rest.isEmpty origin then
        (insert? value (next :: rest) inner).map fun inner => members.set key (.table origin inner)
      else none
    | some (.tables elements) =>
      match rest, elements.getLast? with
      | _ :: _, some last =>
        (insert? value (next :: rest) last).map fun last =>
          members.set key (.tables (elements.dropLast ++ [last]))
      | _, _ => none
    | some _ => none

/-- The members of a table written between braces. -/
def ofPairs? (pairs : List (List String × Node)) : Option Members :=
  pairs.foldlM (fun members (keys, value) => insert? value keys members) []

end Members

/-- `current` has the keys of the header under which keys are added. -/
structure Document where
  members : Members
  current : List String

namespace Document

def empty : Document := { members := [], current := [] }

def underHeader? (doc : Document) (keys : List String) (change : String → Members → Option Members) :
    Option Document :=
  match keys.getLast? with
  | none => none
  | some key => (doc.members.alter? (change key) keys.dropLast).map fun members => ⟨members, keys⟩

/-- A header gives a table that is not there yet, or only on the way of other headers. -/
def openTable? (doc : Document) (keys : List String) : Option Document :=
  doc.underHeader? keys fun key members =>
    match members.get? key with
    | none => some (members ++ [(key, .table .header [])])
    | some (.table .passage inner) => some (members.set key (.table .header inner))
    | some _ => none

/-- A header of an array adds one more table to it. -/
def openElement? (doc : Document) (keys : List String) : Option Document :=
  doc.underHeader? keys fun key members =>
    match members.get? key with
    | none => some (members ++ [(key, .tables [[]])])
    | some (.tables elements) => some (members.set key (.tables (elements ++ [[]])))
    | some _ => none

def insert? (doc : Document) (keys : List String) (value : Node) : Option Document :=
  (doc.members.alter? (Members.insert? value keys) doc.current).map fun members => { doc with members }

end Document
end Switchyard.Config.Toml
