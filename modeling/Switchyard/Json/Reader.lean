import Switchyard.Json.Value
import Switchyard.Text.Percent

/-! # Reading JSON

A reader for one JSON text. Arrays and objects may nest 127 deep, of equal names in an object the
last one counts, and a number that is no 64-bit integer becomes a double.
-/
namespace Switchyard.Json
set_option autoImplicit false

/-- A double from decimal digits: one rounding of the digits, then one multiplication or division
by a power of ten, or several divisions when the power is out of range. -/
def scale (exponent : Int) : Nat → Float → Option Float
  | 0, _ => none
  | fuel + 1, x =>
    if exponent.natAbs ≤ 308 then
      let power := Float.ofScientific 1 false exponent.natAbs
      if 0 ≤ exponent then
        let scaled := x * power
        if scaled.isInf then none else some scaled
      else some (x / power)
    else if x == 0 then some x
    else if 0 ≤ exponent then none
    else scale (exponent + 308) fuel (x / Float.ofScientific 1 false 308)

def signed (negative : Bool) (x : Float) : Float := if negative then -x else x

def floatOfParts? (negative : Bool) (significand : Nat) (exponent : Int) : Option Float :=
  (scale exponent (exponent.natAbs + 2) (UInt64.ofNat significand).toFloat).map (signed negative)

def isDigit (c : Char) : Bool := '0' ≤ c && c ≤ '9'

/-- The leading digits of the text as long as they fit into 64 bits, how many they are, and the
rest. -/
def readDigits (limit : Nat) : Nat → Nat → List Char → Nat × Nat × List Char
  | significand, count, c :: rest =>
    if isDigit c ∧ significand * 10 + (c.toNat - 48) ≤ limit then
      readDigits limit (significand * 10 + (c.toNat - 48)) (count + 1) rest
    else (significand, count, c :: rest)
  | significand, count, [] => (significand, count, [])

def maxWord : Nat := 18446744073709551615

def clampExponent (n : Int) : Int := max (-2147483648) (min 2147483647 n)

/-- What follows the exponent mark. -/
def readExponent? (negative : Bool) (significand : Nat) (start : Int) (text : List Char) :
    Option (Float × List Char) :=
  let (down, text) := match text with
    | '+' :: rest => (false, rest)
    | '-' :: rest => (true, rest)
    | rest => (false, rest)
  match text with
  | [] => none
  | c :: _ =>
    if !isDigit c then none
    else
      let (exponent, _, rest) := readDigits 2147483647 0 0 text
      if rest.head?.any isDigit then
        if significand ≠ 0 ∧ !down then none
        else some (signed negative 0, rest.dropWhile isDigit)
      else
        (floatOfParts? negative significand
          (clampExponent (if down then start - exponent else start + exponent))).map (·, rest)

/-- What may follow the digits of a number that is a double. -/
def readScale? (negative : Bool) (significand : Nat) (exponent : Int) (text : List Char) :
    Option (Float × List Char) :=
  match text with
  | c :: rest =>
    if c = 'e' ∨ c = 'E' then readExponent? negative significand exponent rest
    else (floatOfParts? negative significand exponent).map (·, text)
  | [] => (floatOfParts? negative significand exponent).map (·, text)

/-- What follows the decimal point. Digits that do not fit any more are passed over. -/
def readFraction? (negative : Bool) (significand : Nat) (start : Int) (text : List Char) :
    Option (Float × List Char) :=
  let (extended, count, rest) := readDigits maxWord significand 0 text
  if rest.head?.any isDigit then
    readScale? negative extended (start - count) (rest.dropWhile isDigit)
  else if count = 0 then none
  else readScale? negative extended (start - count) rest

def readNumber? (negative : Bool) (text : List Char) : Option (Value × List Char) :=
  match text with
  | [] => none
  | first :: _ =>
    if !isDigit first then none
    else
      let (significand, count, rest) := readDigits maxWord 0 0 text
      if first = '0' ∧ 1 < count then none
      else
        let more := (rest.takeWhile isDigit).length
        match rest.dropWhile isDigit with
        | '.' :: tail => (readFraction? negative significand more tail).map fun (x, r) => (.float x, r)
        | tail =>
          if more ≠ 0 ∨ tail.head? = some 'e' ∨ tail.head? = some 'E' then
            (readScale? negative significand more tail).map fun (x, r) => (.float x, r)
          else if !negative then some (.int significand, tail)
          else if significand = 0 ∨ 9223372036854775808 < significand then
            some (.float (-(UInt64.ofNat significand).toFloat), tail)
          else some (.int (-significand), tail)

def readHex4? : List Char → Option (Nat × List Char)
  | a :: b :: c :: d :: rest => do
    let digits ← [a, b, c, d].mapM Percent.hexValue?
    return (digits.foldl (fun n digit => 16 * n + digit) 0, rest)
  | _ => none

/-- What follows the backslash of an escape. -/
def readEscape? : List Char → Option (Char × List Char)
  | '\x22' :: rest => some ('\x22', rest)
  | '\\' :: rest => some ('\\', rest)
  | '/' :: rest => some ('/', rest)
  | 'b' :: rest => some ('\x08', rest)
  | 'f' :: rest => some ('\x0c', rest)
  | 'n' :: rest => some ('\n', rest)
  | 'r' :: rest => some ('\r', rest)
  | 't' :: rest => some ('\t', rest)
  | 'u' :: rest => do
    let (unit, rest) ← readHex4? rest
    if 0xdc00 ≤ unit ∧ unit ≤ 0xdfff then none
    else if 0xd800 ≤ unit ∧ unit ≤ 0xdbff then
      match rest with
      | '\\' :: 'u' :: rest =>
        let (low, rest) ← readHex4? rest
        if 0xdc00 ≤ low ∧ low ≤ 0xdfff then
          some (Char.ofNat (0x10000 + (unit - 0xd800) * 0x400 + (low - 0xdc00)), rest)
        else none
      | _ => none
    else some (Char.ofNat unit, rest)
  | _ => none

/-- The rest of a string whose characters so far are in `done`, last one first. -/
def readString? : Nat → List Char → List Char → Option (String × List Char)
  | 0, _, _ => none
  | _, _, [] => none
  | fuel + 1, done, c :: rest =>
    if c = '\x22' then some (String.ofList done.reverse, rest)
    else if c = '\\' then do
      let (escaped, rest) ← readEscape? rest
      readString? fuel (escaped :: done) rest
    else if c.toNat < 0x20 then none
    else readString? fuel (c :: done) rest

def isBlank (c : Char) : Bool := c = ' ' || c = '\n' || c = '\t' || c = '\r'

def skipBlanks (text : List Char) : List Char := text.dropWhile isBlank

def readWord? (word : String) (value : Value) (text : List Char) : Option (Value × List Char) :=
  if word.toList.isPrefixOf text then some (value, text.drop word.length) else none

mutual

def readValue? (fuel depth : Nat) (text : List Char) : Option (Value × List Char) :=
  match fuel with
  | 0 => none
  | fuel + 1 =>
    match skipBlanks text with
    | 'n' :: rest => readWord? "ull" .null rest
    | 't' :: rest => readWord? "rue" (.bool true) rest
    | 'f' :: rest => readWord? "alse" (.bool false) rest
    | '-' :: rest => readNumber? true rest
    | '\x22' :: rest => (readString? (rest.length + 1) [] rest).map fun (s, r) => (.string s, r)
    | '[' :: rest =>
      if depth ≤ 1 then none
      else match skipBlanks rest with
        | ']' :: rest => some (.array [], rest)
        | rest => (readItems? fuel (depth - 1) rest).map fun (items, r) => (.array items, r)
    | '\x7b' :: rest =>
      if depth ≤ 1 then none
      else match skipBlanks rest with
        | '\x7d' :: rest => some (.object [], rest)
        | rest => (readMembers? fuel (depth - 1) rest).map fun (members, r) =>
            (.object (Object.ofList members), r)
    | rest => readNumber? false rest

def readItems? (fuel depth : Nat) (text : List Char) : Option (List Value × List Char) :=
  match fuel with
  | 0 => none
  | fuel + 1 => do
    let (item, rest) ← readValue? fuel depth text
    match skipBlanks rest with
    | ']' :: rest => return ([item], rest)
    | ',' :: rest =>
      let (items, rest) ← readItems? fuel depth rest
      return (item :: items, rest)
    | _ => none

def readMembers? (fuel depth : Nat) (text : List Char) : Option (Object × List Char) :=
  match fuel with
  | 0 => none
  | fuel + 1 =>
    match skipBlanks text with
    | '\x22' :: rest => do
      let (name, rest) ← readString? (rest.length + 1) [] rest
      match skipBlanks rest with
      | ':' :: rest =>
        let (value, rest) ← readValue? fuel depth rest
        match skipBlanks rest with
        | '\x7d' :: rest => return ([(name, value)], rest)
        | ',' :: rest =>
          let (members, rest) ← readMembers? fuel depth rest
          return ((name, value) :: members, rest)
        | _ => none
      | _ => none
    | _ => none

end

/-- The value of a text that holds exactly one. -/
def parse? (text : String) : Option Value :=
  let chars := text.toList
  match readValue? (chars.length + 2) 128 chars with
  | some (value, rest) => if (skipBlanks rest).isEmpty then some value else none
  | none => none

end Switchyard.Json
