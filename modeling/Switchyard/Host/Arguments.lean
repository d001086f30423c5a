import Switchyard.Control.Command
import Switchyard.Host.Usage

/-! # Command lines

The arguments of a host and of a command for a control server.
-/
namespace Switchyard.Host
set_option autoImplicit false

inductive Application where
  | echo
  | proxy
  | initiator
deriving DecidableEq, Repr

def Application.ofName? : String → Option Application
  | "echo" => some .echo
  | "proxy" => some .proxy
  | "initiator" => some .initiator
  | _ => none

/-- What a host is to run, and where its settings are. -/
structure Invocation where
  application : Application
  config : Option String
deriving DecidableEq, Repr

namespace Invocation

/-- No file has an empty name. -/
def configOption : OptionUsage := { letter := 'c', name := "config", mayBeEmpty := false }

def usage : Usage where
  option := some configOption
  hasVersion := true
  commands := ["echo", "proxy", "initiator"]
  operands := 0

def applicationUsage : Usage where
  option := some configOption
  hasVersion := false
  commands := []
  operands := 0

def readApplication (name : String) (arguments : List String) :
    Except Refusal (Application × Option String) := do
  let (config, _) ← applicationUsage.readOperands arguments
  match Application.ofName? name with
  | some application => return (application, config)
  | none => throw .usage

/-- The file of the settings may be given before the application and after it; the latter counts. -/
def ofArguments (arguments : List String) : Except Refusal Invocation := do
  let (before, application, after) ← usage.readCommand readApplication arguments
  return { application, config := after.orElse fun _ => before }

end Invocation

def defaultUrl : String := "http://127.0.0.1:8081"

/-- A command with the address of the server it is for. -/
structure Order where
  url : String
  command : Control.Command
deriving DecidableEq, Repr

namespace Order

def usage : Usage where
  option := some { letter := 'u', name := "url", mayBeEmpty := true }
  hasVersion := false
  commands := ["echo", "shutdown"]
  operands := 0

def commandUsage (operands : Nat) : Usage := { option := none, hasVersion := false, commands := [], operands }

def readCommand (name : String) (arguments : List String) : Except Refusal Control.Command := do
  match name with
  | "echo" =>
    match ← (commandUsage 1).readOperands arguments with
    | (_, [text]) => return .echo text
    | _ => throw .usage
  | _ =>
    let _ ← (commandUsage 0).readOperands arguments
    return .shutdown

def ofArguments (arguments : List String) : Except Refusal Order := do
  let (url, command) ← usage.readCommand readCommand arguments
  return { url := url.getD defaultUrl, command }

/-- What follows the host in the address of the server. -/
def base (order : Order) : String :=
  let chars := order.url.toList
  let afterScheme := match "://".toList.isPrefixOf (chars.dropWhile (· != ':')) with
    | true => (chars.dropWhile (· != ':')).drop 3
    | false => chars
  String.ofList (afterScheme.dropWhile fun c => c != '/' && c != '?' && c != '#')

end Order
end Switchyard.Host
