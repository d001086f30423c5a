import Switchyard.Config.Rules
import Switchyard.Config.Section
import Switchyard.Config.Toml.Reader
import Switchyard.Text.Quoted
import Switchyard.Text.Utf8

/-! # Loading settings -/
namespace Switchyard.Config
set_option autoImplicit false

/-- Why a file could not be read as text. -/
inductive FileError where
  | notFound
  | notText
deriving DecidableEq, Repr

inductive LoadError where
  | file (cause : FileError)
  | unreadable
  | invalid (problems : List Problem)
deriving DecidableEq, Repr

def LoadError.message : LoadError → String
  | file .notFound => "IO error: No such file or directory (os error 2)"
  | file .notText => "IO error: stream did not contain valid UTF-8"
  | unreadable => "Parse error"
  | invalid problems => "Validation failed: " ++ ", ".intercalate (problems.map (·.text))

def Problem.described (p : Problem) : String :=
  "ValidationError \x7b field: " ++ Quoted.text p.field ++ ", message: " ++ Quoted.text p.message
    ++ " \x7d"

/-- The error with its parts named, as operators see it when a host does not start. -/
def LoadError.described : LoadError → String
  | file .notFound =>
    "Io(Os \x7b code: 2, kind: NotFound, message: \"No such file or directory\" \x7d)"
  | file .notText =>
    "Io(Error \x7b kind: InvalidData, message: \"stream did not contain valid UTF-8\" \x7d)"
  | unreadable => "Parse"
  | invalid problems => "Validation([" ++ ", ".intercalate (problems.map (·.described)) ++ "])"

namespace Settings

/-- Settings that break no rule. -/
def accept (s : Settings) : Except LoadError Settings :=
  if s.isAccepted then .ok s else .error (.invalid s.problems)

def ofSource (dialect : Dialect) (source : Source) : Except LoadError Settings :=
  match Format.settings.read? dialect source with
  | some s => s.accept
  | none => .error .unreadable

def ofJson (value : Json.Value) : Except LoadError Settings := ofSource .json (.ofJson value)

def parse (text : String) : Except LoadError Settings :=
  match Toml.parse? text with
  | some members => ofSource .toml (.fields (Source.ofTomlMembers members))
  | none => .error .unreadable

/-- Reads the content of a file, which may not be there. -/
def load : Option Bytes → Except LoadError Settings
  | none => .error (.file .notFound)
  | some data =>
    match Utf8.decode? data with
    | some text => parse text
    | none => .error (.file .notText)

end Settings
end Switchyard.Config
