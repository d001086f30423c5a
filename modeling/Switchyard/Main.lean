import Switchyard.Host.Running

/-! # The command line

`switchyard echo|proxy|initiator [--config FILE]` runs an application; requests to its control server
are read from standard input, a line with a method and a target each. `switchyard control [--url URL]
echo TEXT|shutdown` prints the request line of a command, and reports the answer read from standard
input, whose first line is its status.
-/
namespace Switchyard.Host.CommandLine
set_option autoImplicit false

/-- The content of a file, none if it cannot be read. -/
def readFile? (path : String) : IO (Option Bytes) := do
  try
    let data ← IO.FS.readBinFile path
    return some data.toList
  catch _ => return none

def requestOfLine (line : String) : Rest.HttpRequest :=
  let chars := line.toList
  let target := String.ofList ((chars.dropWhile (· != ' ')).drop 1)
  { head := {
      method := String.ofList (chars.takeWhile (· != ' '))
      target := .parse target
      headers := [] }
    frames := [] }

/-- Answers requests until the host is asked to stop or no more come. -/
partial def serveLines (input output : IO.FS.Stream) (host : Running) : IO Running := do
  if !host.isUp then return host
  let line ← input.getLine
  if line.isEmpty then return host
  let (response, host) := host.serve (requestOfLine (line.trimAscii.toString))
  output.putStrLn s!"{response.status} {response.body}"
  output.flush
  serveLines input output host

def runHost (invocation : Invocation) : IO UInt32 := do
  let content ← match invocation.config with
    | some path => readFile? path
    | none => pure none
  match Running.launch invocation content .isolated .isolated with
  | .error failure =>
    IO.eprint failure.complaint
    return failure.exitCode.toUInt32
  | .ok host =>
    let host ← serveLines (← IO.getStdin) (← IO.getStdout) host
    IO.println host.shutdown.state.component.describe
    return 0

partial def readAll (input : IO.FS.Stream) (text : String) : IO String := do
  let line ← input.getLine
  if line.isEmpty then return text
  readAll input (text ++ line)

def runOrder (order : Order) : IO UInt32 := do
  IO.println (order.command.requestLine order.base)
  let input ← IO.getStdin
  let status ← input.getLine
  let body ← readAll input ""
  let report := Control.Report.ofAnswer (status.trimAscii.toString.toNat?.getD 0) body
  IO.print report.output
  IO.eprint report.complaint
  return 0

def refuse (refusal : Refusal) : IO UInt32 := do
  IO.eprintln "usage: switchyard echo|proxy|initiator [--config FILE]"
  IO.eprintln "       switchyard control [--url URL] echo TEXT|shutdown"
  return refusal.exitCode.toUInt32

def run (arguments : List String) : IO UInt32 :=
  match arguments with
  | "control" :: rest =>
    match Order.ofArguments rest with
    | .ok order => runOrder order
    | .error refusal => refuse refusal
  | _ =>
    match Invocation.ofArguments arguments with
    | .ok invocation => runHost invocation
    | .error refusal => refuse refusal

end Switchyard.Host.CommandLine

def main (arguments : List String) : IO UInt32 := Switchyard.Host.CommandLine.run arguments
