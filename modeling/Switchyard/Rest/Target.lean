/-! # Request targets

The four forms of an HTTP request target: a path, an absolute URI, a bare authority and the asterisk.
The fragment is not part of a target, and an absolute URI without a path has the path of the root. The
schemes of HTTP itself are written in small letters.
-/
namespace Switchyard.Rest
set_option autoImplicit false

structure Target where
  text : String
  path : String
deriving DecidableEq, Repr

namespace Target

def isPathEnd (c : Char) : Bool := c = '/' || c = '?' || c = '#'

def beforeMark (s : List Char) : List Char := s.takeWhile fun c => c != '?' && c != '#'

def beforeFragment (s : List Char) : List Char := s.takeWhile (· != '#')

/-- Splits off a scheme together with the separator after it. -/
def scheme? (s : List Char) : Option (List Char × List Char) :=
  let scheme := s.takeWhile fun c => c != ':' && !isPathEnd c
  match s.drop scheme.length with
  | ':' :: '/' :: '/' :: rest => some (scheme ++ "://".toList, rest)
  | _ => none

/-- Other schemes are kept as they are. -/
def normalScheme (scheme : List Char) : List Char :=
  let small := scheme.map Char.toLower
  if ["http://", "https://"].any (·.toList == small) then small else scheme

def parse (s : String) : Target :=
  let chars := s.toList
  if chars.head? = some '/' then
    { text := String.ofList (beforeFragment chars), path := String.ofList (beforeMark chars) }
  else if s = "*" then { text := s, path := s }
  else
    match scheme? chars with
    | some (scheme, rest) =>
      let authority := rest.takeWhile (!isPathEnd ·)
      let tail := beforeFragment (rest.drop authority.length)
      let path := beforeMark tail
      let root := if path.isEmpty then ['/'] else []
      { text := String.ofList (normalScheme scheme ++ authority ++ root ++ tail)
        path := String.ofList (root ++ path) }
    | none => { text := s, path := "" }

end Target
end Switchyard.Rest
