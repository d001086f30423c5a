import Switchyard.Decimal.Shortest
import Switchyard.Text.Quoted

/-! # JSON values

Values and their texts. Objects keep their members in the order of the names.
-/
namespace Switchyard.Json
set_option autoImplicit false

inductive Value where
  | null
  | bool (b : Bool)
  | int (n : Int)
  | float (x : Float)
  | string (s : String)
  | array (items : List Value)
  | object (members : List (String × Value))
deriving Inhabited

abbrev Object := List (String × Value)

namespace Object

/-- Puts a member in its place; a member of that name is replaced. -/
def insert (name : String) (value : Value) : Object → Object
  | [] => [(name, value)]
  | member :: rest =>
    if name < member.1 then (name, value) :: member :: rest
    else if name = member.1 then (name, value) :: rest
    else member :: insert name value rest

def ofList (members : List (String × Value)) : Object :=
  members.foldl (fun object (name, value) => insert name value object) []

def get? (object : Object) (name : String) : Option Value :=
  (object.find? (·.1 == name)).map (·.2)

end Object

def escapeChar (c : Char) : String :=
  if c = '\x22' then "\\\""
  else if c = '\\' then "\\\\"
  else if c = '\x08' then "\\b"
  else if c = '\x0c' then "\\f"
  else if c = '\n' then "\\n"
  else if c = '\r' then "\\r"
  else if c = '\t' then "\\t"
  else if c.toNat < 0x20 then
    "\\u00" ++ String.ofList ((Nat.toDigits 16 (0x100 + c.toNat)).drop 1)
  else c.toString

def stringText (s : String) : String :=
  "\"" ++ String.join (s.toList.map escapeChar) ++ "\""

/-- A decimal is written plainly from `1e-5` up to `1e16` and with an exponent elsewhere. -/
def decimalText (d : Decimal) : String :=
  let digits := d.digitText
  let point : Int := digits.length + d.exponent
  if 0 ≤ d.exponent ∧ point ≤ 16 then
    String.ofList (digits ++ List.replicate d.exponent.toNat '0') ++ ".0"
  else if 0 < point ∧ point ≤ 16 then
    String.ofList (digits.take point.toNat ++ '.' :: digits.drop point.toNat)
  else if -5 < point ∧ point ≤ 0 then
    "0." ++ String.ofList (List.replicate (-point).toNat '0' ++ digits)
  else
    let exponent := point - 1
    let tail := digits.drop 1
    String.ofList (digits.take 1 ++ if tail.isEmpty then [] else '.' :: tail) ++ "e"
      ++ (if exponent < 0 then "-" else "+") ++ toString exponent.natAbs

/-- The bit of the sign. -/
def signBit : Nat := 9223372036854775808

def floatText (x : Float) : String :=
  let bits := x.toBits.toNat
  let sign := if signBit ≤ bits then "-" else ""
  if bits % signBit = 0 then sign ++ "0.0"
  else sign ++ decimalText (.shortest (.ofFloat x))

mutual

/-- The value on one line without blanks. -/
def Value.compact : Value → String
  | .null => "null"
  | .bool b => if b then "true" else "false"
  | .int n => toString n
  | .float x => floatText x
  | .string s => stringText s
  | .array items => "[" ++ ",".intercalate (compactItems items) ++ "]"
  | .object members => "\x7b" ++ ",".intercalate (compactMembers members) ++ "\x7d"

def compactItems : List Value → List String
  | [] => []
  | item :: rest => item.compact :: compactItems rest

def compactMembers : List (String × Value) → List String
  | [] => []
  | (name, value) :: rest => (stringText name ++ ":" ++ value.compact) :: compactMembers rest

end

def indent (depth : Nat) : String := String.ofList (List.replicate (2 * depth) ' ')

/-- Items one to a line between brackets; no items stay on the same line. -/
def block (opening closing : String) (depth : Nat) (items : List String) : String :=
  if items.isEmpty then opening ++ closing
  else opening ++ "\n" ++ ",\n".intercalate (items.map (indent (depth + 1) ++ ·)) ++ "\n"
    ++ indent depth ++ closing

mutual

/-- The value with one item or member a line, indented by two blanks a level. -/
def Value.pretty (depth : Nat) : Value → String
  | .array items => block "[" "]" depth (prettyItems (depth + 1) items)
  | .object members => block "\x7b" "\x7d" depth (prettyMembers (depth + 1) members)
  | value => value.compact

def prettyItems (depth : Nat) : List Value → List String
  | [] => []
  | item :: rest => item.pretty depth :: prettyItems depth rest

def prettyMembers (depth : Nat) : List (String × Value) → List String
  | [] => []
  | (name, value) :: rest =>
    (stringText name ++ ": " ++ value.pretty depth) :: prettyMembers depth rest

end

mutual

/-- The value with its kind named, as operators see it. -/
def Value.described : Value → String
  | .null => "Null"
  | .bool b => "Bool(" ++ (if b then "true" else "false") ++ ")"
  | .int n => "Number(" ++ toString n ++ ")"
  | .float x => "Number(" ++ floatText x ++ ")"
  | .string s => "String(" ++ Quoted.text s ++ ")"
  | .array items => "Array [" ++ ", ".intercalate (describedItems items) ++ "]"
  | .object members => "Object \x7b" ++ ", ".intercalate (describedMembers members) ++ "\x7d"

def describedItems : List Value → List String
  | [] => []
  | item :: rest => item.described :: describedItems rest

def describedMembers : List (String × Value) → List String
  | [] => []
  | (name, value) :: rest => (Quoted.text name ++ ": " ++ value.described) :: describedMembers rest

end

end Switchyard.Json
