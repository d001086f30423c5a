import Switchyard.Text.Percent

/-! # Targets of web addresses

How the part of a web address behind its host is brought into the form in which it is sent: steps to
the same place and to the place above are taken out, also when their dots are escaped, and characters
that may not be sent as they are become escapes.
-/
namespace Switchyard.Control.Url
set_option autoImplicit false

def isDot (segment : List Char) : Bool :=
  [".", "%2e"].any fun dot => segment.map Char.toLower == dot.toList

def isDoubleDot (segment : List Char) : Bool :=
  ["..", ".%2e", "%2e.", "%2e%2e"].any fun dots => segment.map Char.toLower == dots.toList

/-- The segments without steps; `kept` has those so far, last one first. -/
def resolve (kept : List (List Char)) : List (List Char) → List (List Char)
  | [] => kept.reverse
  | [last] =>
    if isDoubleDot last then ([] :: kept.drop 1).reverse
    else if isDot last then ([] :: kept).reverse
    else (last :: kept).reverse
  | segment :: rest =>
    if isDoubleDot segment then resolve (kept.drop 1) rest
    else if isDot segment then resolve kept rest
    else resolve (segment :: kept) rest

/-- Characters out of plain ASCII, and those listed, are escaped. -/
def escape (listed : List Char) (text : List Char) : List Char :=
  text.flatMap fun c =>
    if c.toNat ≤ 0x20 ∨ 0x7F ≤ c.toNat ∨ listed.contains c then
      (String.utf8EncodeChar c).flatMap fun b =>
        ['%', Percent.hexDigit (b.toNat / 16), Percent.hexDigit (b.toNat % 16)]
    else [c]

def pathEscapes : List Char := ['\x22', '<', '>', '\x60', '\x7b', '\x7d', '^']

def queryEscapes : List Char := ['\x22', '<', '>', '\x27']

/-- Reads what follows the host: a path, and a query that is sent with it. A fragment is not sent, and
a backslash counts as a slash. -/
def target (text : String) : String :=
  let sent := (text.toList.filter fun c => c != '\t' && c != '\n' && c != '\r').takeWhile (· != '#')
  let path := (sent.takeWhile (· != '?')).map fun c => if c = '\\' then '/' else c
  let query := sent.dropWhile (· != '?')
  let segments := resolve [] ((if path.head? = some '/' then path.drop 1 else path).splitOn '/')
  String.ofList ('/' :: escape pathEscapes (segments.intersperse ['/']).flatten
    ++ escape queryEscapes query)

end Switchyard.Control.Url
