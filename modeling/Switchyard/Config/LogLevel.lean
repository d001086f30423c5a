/-! # Log levels -/
namespace Switchyard.Config
set_option autoImplicit false

inductive LogLevel where
  | off
  | error
  | warn
  | info
  | debug
  | trace
deriving DecidableEq, Repr

namespace LogLevel

def name : LogLevel → String
  | off => "off"
  | error => "error"
  | warn => "warn"
  | info => "info"
  | debug => "debug"
  | trace => "trace"

def all : List LogLevel := [off, error, warn, info, debug, trace]

/-- The level a text names, in letters of either case. -/
def ofText? (text : String) : Option LogLevel :=
  all.find? fun level => level.name.toList == text.toList.map Char.toLower

/-- A text that names no level stands for the usual one. -/
def ofText (text : String) : LogLevel := (ofText? text).getD info

end LogLevel
end Switchyard.Config
