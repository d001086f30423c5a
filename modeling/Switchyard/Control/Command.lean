import Switchyard.Control.Url
import Switchyard.Json.Reader
import Switchyard.Rest.Method

/-! # Commands for a control server

What an operator can ask of a control server, and how its answer is reported.
-/
namespace Switchyard.Control
open Rest
set_option autoImplicit false

inductive Command where
  | echo (text : String)
  | shutdown
deriving DecidableEq, Repr

namespace Command

def method : Command → Method
  | echo _ => .post
  | shutdown => .put

def path : Command → String
  | echo text => "/utf8string/" ++ Percent.encode text ++ "/"
  | shutdown => "/shutdown/"

def trimSlashes (base : String) : String :=
  String.ofList (base.toList.reverse.dropWhile (· == '/')).reverse

/-- The target of the request, given what follows the host in the address of the server. -/
def target (command : Command) (base : String) : String :=
  Url.target (trimSlashes base ++ command.path)

def requestLine (command : Command) (base : String) : String :=
  s!"{command.method.name} {command.target base} HTTP/1.1"

end Command

/-- The usual phrases of the statuses. -/
def statusPhrases : List (Nat × String) :=
  [(100, "Continue"), (101, "Switching Protocols"), (102, "Processing"), (200, "OK"),
    (201, "Created"), (202, "Accepted"), (203, "Non Authoritative Information"),
    (204, "No Content"), (205, "Reset Content"), (206, "Partial Content"), (207, "Multi-Status"),
    (208, "Already Reported"), (226, "IM Used"), (300, "Multiple Choices"),
    (301, "Moved Permanently"), (302, "Found"), (303, "See Other"), (304, "Not Modified"),
    (305, "Use Proxy"), (307, "Temporary Redirect"), (308, "Permanent Redirect"),
    (400, "Bad Request"), (401, "Unauthorized"), (402, "Payment Required"), (403, "Forbidden"),
    (404, "Not Found"), (405, "Method Not Allowed"), (406, "Not Acceptable"),
    (407, "Proxy Authentication Required"), (408, "Request Timeout"), (409, "Conflict"),
    (410, "Gone"), (411, "Length Required"), (412, "Precondition Failed"),
    (413, "Payload Too Large"), (414, "URI Too Long"), (415, "Unsupported Media Type"),
    (416, "Range Not Satisfiable"), (417, "Expectation Failed"), (418, "I'm a teapot"),
    (421, "Misdirected Request"), (422, "Unprocessable Entity"), (423, "Locked"),
    (424, "Failed Dependency"), (425, "Too Early"), (426, "Upgrade Required"),
    (428, "Precondition Required"), (429, "Too Many Requests"),
    (431, "Request Header Fields Too Large"), (451, "Unavailable For Legal Reasons"),
    (500, "Internal Server Error"), (501, "Not Implemented"), (502, "Bad Gateway"),
    (503, "Service Unavailable"), (504, "Gateway Timeout"), (505, "HTTP Version Not Supported"),
    (506, "Variant Also Negotiates"), (507, "Insufficient Storage"), (508, "Loop Detected"),
    (510, "Not Extended"), (511, "Network Authentication Required")]

def statusText (status : Nat) : String :=
  toString status ++ " "
    ++ ((statusPhrases.find? (·.1 == status)).map (·.2)).getD "<unknown status code>"

/-- What is printed, and what is complained about. -/
structure Report where
  output : String
  complaint : String
deriving DecidableEq, Repr

/-- An answer in JSON is laid out, any other is shown as it is, and an empty one is not shown. -/
def Report.ofAnswer (status : Nat) (body : String) : Report where
  output := match Json.parse? body with
    | some value => value.pretty 0 ++ "\n"
    | none => if body.isEmpty then "" else body ++ "\n"
  complaint :=
    if 200 ≤ status ∧ status < 300 then ""
    else s!"Error: control server returned status {statusText status}\n"

end Switchyard.Control
