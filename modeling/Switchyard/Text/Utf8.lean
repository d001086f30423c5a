import Switchyard.Bytes

/-! # UTF-8

Bytes are read as UTF-8. Whatever cannot belong to a character is replaced: the longest beginning of a
character at a time, and otherwise a byte at a time.
-/
namespace Switchyard.Utf8
set_option autoImplicit false

/-- How many bytes of a character are owed, in what range the next one lies, and the bits so far. -/
structure Owed where
  count : Nat
  low : Nat
  high : Nat
  bits : Nat
deriving DecidableEq, Repr

/-- What the first byte of a character of several bytes asks for. -/
def lead? (b : Nat) : Option Owed :=
  if 0xC2 ≤ b ∧ b ≤ 0xDF then some ⟨1, 0x80, 0xBF, b - 0xC0⟩
  else if b = 0xE0 then some ⟨2, 0xA0, 0xBF, 0⟩
  else if b = 0xED then some ⟨2, 0x80, 0x9F, 0xD⟩
  else if 0xE1 ≤ b ∧ b ≤ 0xEF then some ⟨2, 0x80, 0xBF, b - 0xE0⟩
  else if b = 0xF0 then some ⟨3, 0x90, 0xBF, 0⟩
  else if b = 0xF4 then some ⟨3, 0x80, 0x8F, 4⟩
  else if 0xF1 ≤ b ∧ b ≤ 0xF3 then some ⟨3, 0x80, 0xBF, b - 0xF0⟩
  else none

def replacement : Char := '\uFFFD'

/-- The characters of the bytes that follow, of which some may still belong to one begun. -/
def decodeFrom : Option Owed → Bytes → List Char
  | none, [] => []
  | some _, [] => [replacement]
  | none, b :: rest =>
    if b.toNat < 0x80 then Char.ofNat b.toNat :: decodeFrom none rest
    else
      match lead? b.toNat with
      | some owed => decodeFrom (some owed) rest
      | none => replacement :: decodeFrom none rest
  | some owed, b :: rest =>
    if owed.low ≤ b.toNat ∧ b.toNat ≤ owed.high then
      let bits := owed.bits * 64 + (b.toNat - 0x80)
      if owed.count = 1 then Char.ofNat bits :: decodeFrom none rest
      else decodeFrom (some ⟨owed.count - 1, 0x80, 0xBF, bits⟩) rest
    else if b.toNat < 0x80 then replacement :: Char.ofNat b.toNat :: decodeFrom none rest
    else
      match lead? b.toNat with
      | some owed => replacement :: decodeFrom (some owed) rest
      | none => replacement :: replacement :: decodeFrom none rest

def decodeLossy (data : Bytes) : String := String.ofList (decodeFrom none data)

def encode (text : String) : Bytes := text.toUTF8.toList

/-- The text that has these bytes, if there is one. -/
def decode? (data : Bytes) : Option String :=
  if encode (decodeLossy data) = data then some (decodeLossy data) else none

end Switchyard.Utf8
