import Switchyard.Text.Invisible

/-! # Quoted text

Characters and texts as they stand between quotes in a message: the usual short escapes, and the
hexadecimal code point of every other character that would not show.
-/
namespace Switchyard.Quoted
set_option autoImplicit false

def hexText (n : Nat) : String :=
  String.ofList (Nat.toDigits 16 n)

def codePointEscape (c : Char) : String :=
  "\\u\x7b" ++ hexText c.toNat ++ "\x7d"

/-- A character between the quotes given by `quote`, which is the only quote that is escaped. -/
def escape (quote : Char) (c : Char) : String :=
  if c = '\x00' then "\\0"
  else if c = '\t' then "\\t"
  else if c = '\r' then "\\r"
  else if c = '\n' then "\\n"
  else if c = '\\' ∨ c = quote then "\\" ++ c.toString
  else if Text.isInvisible c then codePointEscape c
  else c.toString

def char (c : Char) : String :=
  "'" ++ escape '\x27' c ++ "'"

def text (s : String) : String :=
  "\"" ++ String.join (s.toList.map (escape '\x22')) ++ "\""

end Switchyard.Quoted
