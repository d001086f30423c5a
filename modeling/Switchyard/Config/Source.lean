import Switchyard.Config.Toml.Document
import Switchyard.Json.Value

/-! # Sources of settings

What a document says before it is known which settings it is about, and the formats it can be in.
-/
namespace Switchyard.Config
set_option autoImplicit false

/-- A date names no field when a section is asked for. What is neither of use nor a section, such as a
float, is `other`. -/
inductive Source where
  | text (s : String)
  | integer (n : Int)
  | boolean (b : Bool)
  | date
  | list (items : List Source)
  | fields (members : List (String × Source))
  | nothing
  | other
deriving Inhabited

/-- Where formats differ: whether a list may be longer than its section has fields, and what stands
for a value that says nothing. -/
structure Dialect where
  longLists : Bool
  isBlank : Source → Bool

namespace Dialect

def json : Dialect where
  longLists := false
  isBlank
    | .nothing => true
    | _ => false

def toml : Dialect where
  longLists := true
  isBlank
    | .list items => items.isEmpty
    | .fields members => members.isEmpty
    | _ => false

end Dialect

namespace Source

mutual

def ofJson : Json.Value → Source
  | .null => .nothing
  | .bool b => .boolean b
  | .int n => .integer n
  | .float _ => .other
  | .string s => .text s
  | .array items => .list (ofJsonItems items)
  | .object members => .fields (ofJsonMembers members)

def ofJsonItems : List Json.Value → List Source
  | [] => []
  | item :: rest => ofJson item :: ofJsonItems rest

def ofJsonMembers : List (String × Json.Value) → List (String × Source)
  | [] => []
  | (name, value) :: rest => (name, ofJson value) :: ofJsonMembers rest

end

mutual

def ofToml : Toml.Node → Source
  | .text s => .text s
  | .integer n => .integer n
  | .boolean b => .boolean b
  | .float => .other
  | .date => .date
  | .array items => .list (ofTomlItems items)
  | .table _ members => .fields (ofTomlMembers members)
  | .tables elements => .list (ofTomlTables elements)

def ofTomlItems : List Toml.Node → List Source
  | [] => []
  | item :: rest => ofToml item :: ofTomlItems rest

def ofTomlMembers : List (String × Toml.Node) → List (String × Source)
  | [] => []
  | (name, node) :: rest => (name, ofToml node) :: ofTomlMembers rest

def ofTomlTables : List (List (String × Toml.Node)) → List Source
  | [] => []
  | members :: rest => .fields (ofTomlMembers members) :: ofTomlTables rest

end

end Source
end Switchyard.Config
