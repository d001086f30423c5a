/-! # Usage

How the arguments of a command are read. A command may have an option with a value, and takes either
operands or a command of its own. The value of an option is looked at only when the next argument of
the same command has been seen, or its arguments are at an end; what follows a command of its own, and
a request for help, come first.
-/
namespace Switchyard.Host
set_option autoImplicit false

/-- Why nothing is run. -/
inductive Refusal where
  | help
  | usage
deriving DecidableEq, Repr

def Refusal.exitCode : Refusal → Nat
  | help => 0
  | usage => 2

/-- An argument by its form. Single letters stand behind one dash, with a value that may follow at
once; names stand behind two, with a value behind an equals sign. -/
inductive Word where
  | separator
  | named (name : String) (value : Option String)
  | letter (letter : Char) (value : Option String)
  | plain (text : String)
deriving DecidableEq, Repr

namespace Word

/-- What stands behind a letter, in front of which there may be an equals sign. -/
def letterValue : List Char → Option String
  | [] => none
  | '=' :: value => some (String.ofList value)
  | value => some (String.ofList value)

def of (text : String) : Word :=
  match text.toList with
  | ['-', '-'] => .separator
  | '-' :: '-' :: rest =>
    .named (String.ofList (rest.takeWhile (· != '=')))
      ((rest.dropWhile (· != '=')).tail?.map String.ofList)
  | '-' :: c :: rest => .letter c (letterValue rest)
  | _ => .plain text

end Word

structure OptionUsage where
  letter : Char
  name : String
  mayBeEmpty : Bool
deriving DecidableEq, Repr

/-- What a command takes. A command with commands of its own takes exactly one of them, and no
operands. -/
structure Usage where
  option : Option OptionUsage
  hasVersion : Bool
  commands : List String
  operands : Nat
deriving DecidableEq, Repr

/-- The value of an option that has been named last. -/
inductive Pending where
  | nothing
  | awaited
  | given (value : String)
deriving DecidableEq, Repr

/-- What has been read. After a separator there are only operands. -/
structure Reading where
  value : Option String
  pending : Pending
  separated : Bool
  operands : List String
deriving DecidableEq, Repr

namespace Reading

def empty : Reading := { value := none, pending := .nothing, separated := false, operands := [] }

end Reading

namespace Usage

def takesValue (usage : Usage) (value : String) : Bool :=
  !value.isEmpty || usage.option.any (·.mayBeEmpty)

/-- An option may be given once, with a value that it takes. -/
def settle (usage : Usage) (r : Reading) : Except Refusal Reading :=
  match r.pending with
  | .nothing => .ok r
  | .awaited => .error .usage
  | .given value =>
    if r.value.isSome || !usage.takesValue value then .error .usage
    else .ok { r with value := some value, pending := .nothing }

def giveOption (usage : Usage) (r : Reading) : Option String → Except Refusal Reading
  | none => do return { ← usage.settle r with pending := .awaited }
  | some value => do usage.settle { ← usage.settle r with pending := .given value }

/-- Help and the version are shown at once. -/
def inform (usage : Usage) (r : Reading) : Except Refusal Reading := do
  let _ ← usage.settle r
  throw .help

def readNamed (usage : Usage) (r : Reading) (name : String) (value : Option String) :
    Except Refusal Reading :=
  if usage.option.any (·.name == name) then usage.giveOption r value
  else if value.isNone && (name == "help" || usage.hasVersion && name == "version") then usage.inform r
  else .error .usage

def readLetter (usage : Usage) (r : Reading) (letter : Char) (value : Option String) :
    Except Refusal Reading :=
  if usage.option.any (·.letter == letter) then usage.giveOption r value
  else if letter == 'h' || usage.hasVersion && letter == 'V' then usage.inform r
  else .error .usage

def readOperand (usage : Usage) (r : Reading) (text : String) : Except Refusal Reading := do
  let r ← usage.settle r
  if r.operands.length < usage.operands then return { r with operands := r.operands ++ [text] }
  else throw .usage

def readWord (usage : Usage) (r : Reading) (text : String) : Except Refusal Reading :=
  if r.separated then usage.readOperand r text
  else
    match Word.of text with
    | .separator => .ok { r with separated := true }
    | .named name value => usage.readNamed r name value
    | .letter letter value => usage.readLetter r letter value
    | .plain text =>
      if r.pending = .awaited then .ok { r with pending := .given text } else usage.readOperand r text

/-- Whether an argument is a command where it stands. -/
def isCommand (usage : Usage) (r : Reading) (text : String) : Bool :=
  !r.separated && r.pending != .awaited && (usage.commands.contains text
    || !usage.commands.isEmpty && text == "help")

/-- Help is given for one command at most. -/
def helpFor (usage : Usage) : List String → Refusal
  | [] => .help
  | [name] => if usage.commands.contains name || name == "help" then .help else .usage
  | _ => .usage

/-- Reads up to a command, which comes with the arguments behind it. -/
def readUpTo (usage : Usage) (r : Reading) :
    List String → Except Refusal (Reading × Option (String × List String))
  | [] => .ok (r, none)
  | text :: rest =>
    if usage.isCommand r text then
      if usage.commands.contains text then .ok (r, some (text, rest))
      else .error (usage.helpFor rest)
    else do usage.readUpTo (← usage.readWord r text) rest

/-- The value of the option and the operands of a command that has no commands of its own. -/
def readOperands (usage : Usage) (arguments : List String) :
    Except Refusal (Option String × List String) := do
  let (r, _) ← usage.readUpTo .empty arguments
  let r ← usage.settle r
  if r.operands.length = usage.operands then return (r.value, r.operands) else throw .usage

/-- The value of the option, and what `read` makes of the command that was given. -/
def readCommand {α : Type} (usage : Usage) (read : String → List String → Except Refusal α)
    (arguments : List String) : Except Refusal (Option String × α) := do
  match ← usage.readUpTo .empty arguments with
  | (_, none) => throw .usage
  | (r, some (name, rest)) =>
    let command ← read name rest
    return ((← usage.settle r).value, command)

end Usage
end Switchyard.Host
