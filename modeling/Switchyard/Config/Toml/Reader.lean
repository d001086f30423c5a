import Switchyard.Config.Toml.Number
import Switchyard.Config.Toml.Text

/-! # Reading TOML

A reader for whole documents: a line holds a key with its value, or a header.
-/
namespace Switchyard.Config.Toml
set_option autoImplicit false

def readWord? (word : String) (node : Node) (text : List Char) : Option (Node × List Char) :=
  if word.toList.isPrefixOf text then some (node, text.drop word.length) else none

mutual

/-- `depth` is how many arrays and tables may still be opened. -/
def readValue? (fuel depth : Nat) (text : List Char) : Option (Node × List Char) :=
  match fuel with
  | 0 => none
  | fuel + 1 =>
    match text with
    | '\x22' :: rest => (readString? '\x22' rest).map fun (s, r) => (.text s, r)
    | '\x27' :: rest => (readString? '\x27' rest).map fun (s, r) => (.text s, r)
    | '[' :: rest =>
      if depth = 0 then none
      else (readItems? fuel (depth - 1) (skipLines false rest)).map fun (items, r) => (.array items, r)
    | '\x7b' :: rest =>
      if depth = 0 then none
      else match skipBlanks rest with
        | '\x7d' :: rest => some (.table .braces [], rest)
        | rest => do
          let (pairs, rest) ← readPairs? fuel (depth - 1) rest
          return (.table .braces (← Members.ofPairs? pairs), rest)
    | 't' :: _ => readWord? "true" (.boolean true) text
    | 'f' :: _ => readWord? "false" (.boolean false) text
    | _ => ((readDate? text).orElse fun _ => readFloat? text).orElse fun _ => readInteger? text

/-- The items up to the closing bracket; a comma may stand behind the last one. -/
def readItems? (fuel depth : Nat) (text : List Char) : Option (List Node × List Char) :=
  match fuel with
  | 0 => none
  | fuel + 1 =>
    match text with
    | ']' :: rest => some ([], rest)
    | _ => do
      let (item, rest) ← readValue? fuel depth text
      match skipLines false rest with
      | ']' :: rest => return ([item], rest)
      | ',' :: rest =>
        let (items, rest) ← readItems? fuel depth (skipLines false rest)
        return (item :: items, rest)
      | _ => none

/-- The keys and values up to the closing brace, all on one line. -/
def readPairs? (fuel depth : Nat) (text : List Char) : Option (List (List String × Node) × List Char) :=
  match fuel with
  | 0 => none
  | fuel + 1 => do
    let (keys, rest) ← readKey? text
    let (value, rest) ← readValue? fuel depth (skipBlanks (← mark? '=' rest))
    match skipBlanks rest with
    | '\x7d' :: rest => return ([(keys, value)], rest)
    | ',' :: rest =>
      let (pairs, rest) ← readPairs? fuel depth rest
      return ((keys, value) :: pairs, rest)
    | _ => none

end

/-- One line that is not blank. -/
def readExpression? (doc : Document) (text : List Char) : Option (Document × List Char) :=
  match text with
  | '[' :: '[' :: rest => do
    let (keys, rest) ← readKey? rest
    let rest ← endLine? (← mark? ']' (← mark? ']' rest))
    return (← doc.openElement? keys, rest)
  | '[' :: rest => do
    let (keys, rest) ← readKey? rest
    let rest ← endLine? (← mark? ']' rest)
    return (← doc.openTable? keys, rest)
  | _ => do
    let (keys, rest) ← readKey? text
    let (value, rest) ← readValue? (text.length + 1) (maxDepth - 1) (skipBlanks (← mark? '=' rest))
    let rest ← endLine? rest
    return (← doc.insert? keys value, rest)

def readExpressions? : Nat → Document → List Char → Option Document
  | 0, _, _ => none
  | fuel + 1, doc, text =>
    match skipLines false text with
    | [] => some doc
    | rest => do
      let (doc, rest) ← readExpression? doc rest
      readExpressions? fuel doc rest

/-- A mark of the byte order may come first. -/
def dropMark : List Char → List Char
  | '\uFEFF' :: rest => rest
  | text => text

def parse? (text : String) : Option Members :=
  let chars := dropMark text.toList
  (readExpressions? (chars.length + 1) .empty chars).map (·.members)

end Switchyard.Config.Toml
