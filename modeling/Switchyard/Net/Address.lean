/-! # Socket addresses

The textual form of an IP address with a port: four decimal octets, or eight hexadecimal groups in
brackets, of which one run may be left out and the last two may be written as octets.
-/
namespace Switchyard.Net
set_option autoImplicit false

inductive SocketAddress where
  | v4 (octets : List Nat) (port : Nat)
  | v6 (groups : List Nat) (scope port : Nat)
deriving DecidableEq, Repr

namespace SocketAddress

def digit? (radix : Nat) (c : Char) : Option Nat :=
  let value := if '0' ≤ c ∧ c ≤ '9' then c.toNat - 48
    else if 'a' ≤ c ∧ c ≤ 'f' then c.toNat - 87
    else if 'A' ≤ c ∧ c ≤ 'F' then c.toNat - 55
    else radix
  if value < radix then some value else none

/-- The rules of one number: its base, its greatest length and value, and whether zeros may lead. -/
structure NumberRule where
  radix : Nat
  maxDigits : Option Nat
  leadingZeros : Bool
  maxValue : Nat

def octet : NumberRule := ⟨10, some 3, false, 255⟩
def group : NumberRule := ⟨16, some 4, true, 65535⟩
def port : NumberRule := ⟨10, none, true, 65535⟩
def scope : NumberRule := ⟨10, none, true, 4294967295⟩

def number? (rule : NumberRule) (s : List Char) : Option (Nat × List Char) :=
  let digits := s.takeWhile fun c => (digit? rule.radix c).isSome
  let value := digits.foldl (fun n c => n * rule.radix + (digit? rule.radix c).getD 0) 0
  if digits.isEmpty then none
  else if rule.maxDigits.any (· < digits.length) then none
  else if !rule.leadingZeros && digits.head? == some '0' && 1 < digits.length then none
  else if rule.maxValue < value then none
  else some (value, s.drop digits.length)

def char? (c : Char) : List Char → Option (List Char)
  | first :: rest => if first = c then some rest else none
  | [] => none

/-- A colon before every group but the first. -/
def separator? (first : Bool) (s : List Char) : Option (List Char) :=
  if first then some s else char? ':' s

def octets? (s : List Char) : Option (List Nat × List Char) := do
  let (a, s) ← number? octet s
  let (b, s) ← number? octet (← char? '.' s)
  let (c, s) ← number? octet (← char? '.' s)
  let (d, s) ← number? octet (← char? '.' s)
  return ([a, b, c, d], s)

/-- As many groups as can be read, at most `limit`, and whether they end in octets. -/
def groups (limit : Nat) (first : Bool) (s : List Char) : List Nat × Bool × List Char :=
  match limit with
  | 0 => ([], false, s)
  | limit + 1 =>
    match if limit = 0 then none else (separator? first s).bind octets? with
    | some (octets, rest) =>
      ([octets.getD 0 0 * 256 + octets.getD 1 0, octets.getD 2 0 * 256 + octets.getD 3 0], true, rest)
    | none =>
      match (separator? first s).bind (number? group) with
      | some (value, rest) =>
        let (more, inOctets, rest) := groups limit false rest
        (value :: more, inOctets, rest)
      | none => ([], false, s)

def groups8? (s : List Char) : Option (List Nat × List Char) :=
  let (head, inOctets, rest) := groups 8 true s
  if head.length = 8 then some (head, rest)
  else if inOctets then none
  else do
    let rest ← char? ':' (← char? ':' rest)
    let (tail, _, rest) := groups (7 - head.length) true rest
    return (head ++ List.replicate (8 - head.length - tail.length) 0 ++ tail, rest)

def v4? (s : List Char) : Option (SocketAddress × List Char) := do
  let (octets, s) ← octets? s
  let (port, s) ← number? port (← char? ':' s)
  return (.v4 octets port, s)

def scope? (s : List Char) : Nat × List Char :=
  ((char? '%' s).bind (number? scope)).getD (0, s)

def v6? (s : List Char) : Option (SocketAddress × List Char) := do
  let (groups, s) ← groups8? (← char? '[' s)
  let (scope, s) := scope? s
  let (port, s) ← number? port (← char? ':' (← char? ']' s))
  return (.v6 groups scope port, s)

/-- Reads a text that is an address from its first to its last character. -/
def parse? (text : String) : Option SocketAddress :=
  match (v4? text.toList).orElse fun _ => v6? text.toList with
  | some (address, []) => some address
  | _ => none

end SocketAddress

/-- The address a text names, or why it names none: a host needs a port behind its last colon. -/
inductive Resolution where
  | address (address : SocketAddress)
  | host (name : String) (port : Nat)
  | invalidAddress
  | invalidPort
deriving DecidableEq, Repr

namespace Resolution

/-- A number as it may stand for a port: a plus sign may come first. -/
def port? (s : List Char) : Option Nat :=
  let digits := if s.head? = some '+' then s.drop 1 else s
  match SocketAddress.number? SocketAddress.port digits with
  | some (value, []) => some value
  | _ => none

def of (text : String) : Resolution :=
  match SocketAddress.parse? text with
  | some found => .address found
  | none =>
    let reversed := text.toList.reverse
    let port := (reversed.takeWhile (· != ':')).reverse
    match reversed.drop port.length with
    | [] => .invalidAddress
    | _ :: name =>
      match port? port with
      | some value => .host (String.ofList name.reverse) value
      | none => .invalidPort

end Resolution
end Switchyard.Net
