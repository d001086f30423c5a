import Switchyard.Text.Percent

/-! # The characters of TOML

Blanks, ends of lines and comments, the four kinds of strings, and keys.
-/
namespace Switchyard.Config.Toml
set_option autoImplicit false

def isBlank (c : Char) : Bool := c = ' ' || c = '\t'

/-- A character that may stand in a comment: anything but a control character. A tab is none. -/
def isPlain (c : Char) : Bool := c = '\t' || (0x20 ≤ c.toNat && c.toNat ≠ 0x7F)

def skipBlanks (text : List Char) : List Char := text.dropWhile isBlank

/-- What follows an end of line. -/
def newline? : List Char → Option (List Char)
  | '\n' :: rest => some rest
  | '\r' :: '\n' :: rest => some rest
  | _ => none

/-- The text behind blanks, ends of lines and comments. A character that may not stand in a comment
is left there for the reader to stumble over. -/
def skipLines : Bool → List Char → List Char
  | _, '\n' :: rest => skipLines false rest
  | _, '\r' :: '\n' :: rest => skipLines false rest
  | inComment, c :: rest =>
    if inComment then if isPlain c then skipLines true rest else c :: rest
    else if isBlank c then skipLines false rest
    else if c = '#' then skipLines true rest
    else c :: rest
  | _, [] => []

/-- Only a comment may stand on the rest of a line. -/
def endLine? (text : List Char) : Option (List Char) :=
  let rest := match skipBlanks text with
    | '#' :: rest => rest.dropWhile isPlain
    | rest => rest
  if rest.isEmpty then some [] else newline? rest

/-- A character given by the digits of its code point. -/
def readCodePoint? (count : Nat) (text : List Char) : Option (Char × List Char) := do
  let digits ← (text.take count).mapM Percent.hexValue?
  let n := digits.foldl (fun n digit => 16 * n + digit) 0
  if digits.length = count ∧ n.isValidChar then return (Char.ofNat n, text.drop count)
  else none

/-- What follows the backslash of an escape. -/
def readEscape? : List Char → Option (Char × List Char)
  | 'b' :: rest => some ('\x08', rest)
  | 't' :: rest => some ('\t', rest)
  | 'n' :: rest => some ('\n', rest)
  | 'f' :: rest => some ('\x0c', rest)
  | 'r' :: rest => some ('\r', rest)
  | '\x22' :: rest => some ('\x22', rest)
  | '\\' :: rest => some ('\\', rest)
  | 'u' :: rest => readCodePoint? 4 rest
  | 'U' :: rest => readCodePoint? 8 rest
  | _ => none

/-- Only strings in double quotes have escapes. -/
def hasEscapes (quote : Char) : Bool := quote = '\x22'

/-- The rest of a string on one line. The characters so far are in `done`, last one first. -/
def readLine? (quote : Char) : Nat → List Char → List Char → Option (String × List Char)
  | 0, _, _ => none
  | _, _, [] => none
  | fuel + 1, done, c :: rest =>
    if c = quote then some (String.ofList done.reverse, rest)
    else if c = '\\' ∧ hasEscapes quote then do
      let (escaped, rest) ← readEscape? rest
      readLine? quote fuel (escaped :: done) rest
    else if isPlain c then readLine? quote fuel (c :: done) rest
    else none

/-- The text behind blanks and ends of lines. -/
def skipSpace : List Char → List Char
  | '\n' :: rest => skipSpace rest
  | '\r' :: '\n' :: rest => skipSpace rest
  | c :: rest => if isBlank c then skipSpace rest else c :: rest
  | [] => []

/-- A backslash at the end of a line takes all blanks and ends of lines behind it away. -/
def continued? (text : List Char) : Option (List Char) :=
  (newline? (skipBlanks text)).map skipSpace

/-- The rest of a string between triple quotes. Up to two quotes may stand before the closing ones. -/
def readBlock? (quote : Char) : Nat → List Char → List Char → Option (String × List Char)
  | 0, _, _ => none
  | _, _, [] => none
  | fuel + 1, done, c :: rest =>
    if c = quote then
      let count := ((c :: rest).takeWhile (· == quote)).length
      if count < 3 then readBlock? quote fuel (List.replicate count quote ++ done) ((c :: rest).drop count)
      else
        let kept := min (count - 3) 2
        some (String.ofList (List.replicate kept quote ++ done).reverse, (c :: rest).drop (kept + 3))
    else if c = '\\' ∧ hasEscapes quote then
      match continued? rest with
      | some rest => readBlock? quote fuel done rest
      | none => do
        let (escaped, rest) ← readEscape? rest
        readBlock? quote fuel (escaped :: done) rest
    else
      match newline? (c :: rest) with
      | some rest => readBlock? quote fuel ('\n' :: done) rest
      | none => if isPlain c then readBlock? quote fuel (c :: done) rest else none

/-- The string whose opening quote has been read. An end of line right behind triple quotes does not
count. -/
def readString? (quote : Char) (text : List Char) : Option (String × List Char) :=
  match text with
  | a :: b :: rest =>
    if a = quote ∧ b = quote then
      let rest := (newline? rest).getD rest
      readBlock? quote (rest.length + 1) [] rest
    else readLine? quote (text.length + 1) [] text
  | _ => readLine? quote (text.length + 1) [] text

def isBare (c : Char) : Bool := c.isAlphanum || c = '-' || c = '_'

def readSimpleKey? (text : List Char) : Option (String × List Char) :=
  match text with
  | [] => none
  | c :: rest =>
    if c = '\x22' ∨ c = '\x27' then readLine? c (rest.length + 1) [] rest
    else
      let name := text.takeWhile isBare
      if name.isEmpty then none else some (String.ofList name, text.dropWhile isBare)

/-- The keys between dots, with the blanks around them. -/
def readKeys? : Nat → List Char → Option (List String × List Char)
  | 0, _ => none
  | fuel + 1, text => do
    let (key, rest) ← readSimpleKey? (skipBlanks text)
    match skipBlanks rest with
    | '.' :: rest =>
      let (keys, rest) ← readKeys? fuel rest
      return (key :: keys, rest)
    | rest => return ([key], rest)

/-- Fewer than this many keys may be joined, or arrays and tables nested. -/
def maxDepth : Nat := 80

def readKey? (text : List Char) : Option (List String × List Char) :=
  readKeys? (maxDepth - 1) text

end Switchyard.Config.Toml
