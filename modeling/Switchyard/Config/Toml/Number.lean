import Switchyard.Config.Toml.Document
import Switchyard.Text.Percent

/-! # The numbers and dates of TOML

Digits may be parted by single underscores. An integer has 64 bits with its sign. Of a float only its
form counts, and that it is no positive number too great for a double.
-/
namespace Switchyard.Config.Toml
set_option autoImplicit false

def isDigit (c : Char) : Bool := '0' ≤ c && c ≤ '9'

/-- More digits, each after at most one underscore. -/
def moreDigits (isDigit : Char → Bool) : List Char → List Char × List Char
  | '_' :: c :: rest =>
    if isDigit c then
      let (digits, rest) := moreDigits isDigit rest
      (c :: digits, rest)
    else ([], '_' :: c :: rest)
  | c :: rest =>
    if isDigit c then
      let (digits, rest) := moreDigits isDigit rest
      (c :: digits, rest)
    else ([], c :: rest)
  | [] => ([], [])

def digits? (isDigit : Char → Bool) (text : List Char) : Option (List Char × List Char) :=
  match text with
  | c :: rest =>
    if isDigit c then
      let (digits, rest) := moreDigits isDigit rest
      some (c :: digits, rest)
    else none
  | [] => none

def valueOf (radix : Nat) (digits : List Char) : Nat :=
  digits.foldl (fun n c => n * radix + (Percent.hexValue? c).getD 0) 0

/-- A sign, and whether it is a minus. -/
def readSign (text : List Char) : Bool × List Char :=
  match text with
  | '+' :: rest => (false, rest)
  | '-' :: rest => (true, rest)
  | rest => (false, rest)

/-- Digits of which the first is no zero, or a zero alone. -/
def wholeDigits? : List Char → Option (List Char × List Char)
  | '0' :: rest => some (['0'], rest)
  | text => digits? isDigit text

def signed? (negative : Bool) (n : Nat) : Option Node :=
  if negative then if n ≤ 9223372036854775808 then some (.integer (-n)) else none
  else if n < 9223372036854775808 then some (.integer n) else none

def readInRadix? (radix : Nat) (text : List Char) : Option (Node × List Char) := do
  let (digits, rest) ← digits? (fun c => (Percent.hexValue? c).any (· < radix)) text
  return (← signed? false (valueOf radix digits), rest)

def readInteger? (text : List Char) : Option (Node × List Char) :=
  match text with
  | '0' :: 'x' :: rest => readInRadix? 16 rest
  | '0' :: 'o' :: rest => readInRadix? 8 rest
  | '0' :: 'b' :: rest => readInRadix? 2 rest
  | _ => do
    let (negative, rest) := readSign text
    let (digits, rest) ← wholeDigits? rest
    return (← signed? negative (valueOf 10 digits), rest)

/-- Whether `significand * 10 ^ exponent` is nearer to `2 ^ 1024` than to any double. -/
def overflows (significand : Nat) (exponent : Int) : Bool :=
  let size := (Nat.toDigits 10 significand).length + exponent
  if significand = 0 ∨ size ≤ 308 then false
  else if 309 < size then true
  else Nat.pow 2 1024 - Nat.pow 2 970
    ≤ significand * Nat.pow 10 exponent.toNat / Nat.pow 10 (-exponent).toNat

def readExponent? (text : List Char) : Option (Int × List Char) :=
  match text with
  | c :: rest =>
    if c = 'e' ∨ c = 'E' then do
      let (negative, rest) := readSign rest
      let (digits, rest) ← digits? isDigit rest
      let n : Int := valueOf 10 digits
      return (if negative then -n else n, rest)
    else none
  | [] => none

def readFraction? (text : List Char) : Option (List Char × List Char) :=
  match text with
  | '.' :: rest => digits? isDigit rest
  | _ => none

def readNamedFloat? (text : List Char) : Option (Node × List Char) :=
  match text with
  | 'i' :: 'n' :: 'f' :: rest => some (.float, rest)
  | 'n' :: 'a' :: 'n' :: rest => some (.float, rest)
  | _ => none

/-- The digits of a fraction and the exponent; one of them may be missing. -/
def readScale? (text : List Char) : Option (List Char × Int × List Char) :=
  match readExponent? text with
  | some (exponent, rest) => some ([], exponent, rest)
  | none =>
    match readFraction? text with
    | none => none
    | some (fraction, rest) =>
      if rest.head? = some 'e' ∨ rest.head? = some 'E' then
        (readExponent? rest).map fun (exponent, rest) => (fraction, exponent, rest)
      else some (fraction, 0, rest)

/-- A float has a fraction or an exponent, or is one of the named ones. -/
def readFloat? (text : List Char) : Option (Node × List Char) :=
  let (negative, text) := readSign text
  match wholeDigits? text with
  | none => readNamedFloat? text
  | some (whole, rest) => do
    let (fraction, exponent, rest) ← readScale? rest
    if !negative ∧ overflows (valueOf 10 (whole ++ fraction)) (exponent - fraction.length) then none
    else return (.float, rest)

/-! Dates and times. -/

/-- A number of so many digits between two bounds. -/
def readField? (count low high : Nat) (text : List Char) : Option (Nat × List Char) :=
  let digits := text.take count
  let n := valueOf 10 digits
  if digits.length = count ∧ digits.all isDigit ∧ low ≤ n ∧ n ≤ high then some (n, text.drop count)
  else none

def mark? (c : Char) : List Char → Option (List Char)
  | first :: rest => if first = c then some rest else none
  | [] => none

def daysInMonth (year month : Nat) : Nat :=
  if month = 2 then if year % 4 = 0 ∧ (year % 100 ≠ 0 ∨ year % 400 = 0) then 29 else 28
  else if month = 4 ∨ month = 6 ∨ month = 9 ∨ month = 11 then 30
  else 31

def skipDay? (text : List Char) : Option (List Char) := do
  let (year, rest) ← readField? 4 0 9999 text
  let (month, rest) ← readField? 2 1 12 (← mark? '-' rest)
  let (_, rest) ← readField? 2 1 (daysInMonth year month) (← mark? '-' rest)
  return rest

/-- A minute may have a leap second. -/
def skipTime? (text : List Char) : Option (List Char) := do
  let (_, rest) ← readField? 2 0 23 text
  let (_, rest) ← readField? 2 0 59 (← mark? ':' rest)
  let (_, rest) ← readField? 2 0 60 (← mark? ':' rest)
  match rest with
  | '.' :: c :: tail => return if isDigit c then tail.dropWhile isDigit else rest
  | _ => return rest

def skipOffset? (text : List Char) : Option (List Char) :=
  match text with
  | 'Z' :: rest | 'z' :: rest => some rest
  | '+' :: rest | '-' :: rest => do
    let (_, rest) ← readField? 2 0 23 rest
    let (_, rest) ← readField? 2 0 59 (← mark? ':' rest)
    return rest
  | _ => none

/-- What may follow a day: a time, and behind it the distance from universal time. -/
def skipTimeOfDay? (text : List Char) : Option (List Char) :=
  match text with
  | 'T' :: rest | 't' :: rest | ' ' :: rest =>
    (skipTime? rest).map fun rest => (skipOffset? rest).getD rest
  | _ => none

def readDate? (text : List Char) : Option (Node × List Char) :=
  match skipDay? text with
  | some rest => some (.date, (skipTimeOfDay? rest).getD rest)
  | none => (skipTime? text).map fun rest => (.date, rest)

end Switchyard.Config.Toml
