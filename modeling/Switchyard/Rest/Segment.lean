import Switchyard.Text.Percent

/-! # Path segments

A segment is one piece of a path between slashes, kept as it was written and as the text it decodes
to. Two segments are the same when they are written the same.
-/
namespace Switchyard.Rest
set_option autoImplicit false

def isControl (c : Char) : Bool :=
  c.toNat < 0x20 || (0x7f ≤ c.toNat && c.toNat < 0xa0)

/-- Characters that no path may hold in plain form. -/
def isIllegal (c : Char) : Bool :=
  isControl c || [' ', '\x22', '<', '>', '\\', '^', '\x60', '\x7b', '|', '\x7d'].contains c

def isSegmentChar (c : Char) : Bool :=
  !isIllegal c && c != '/' && c != '?' && c != '#'

/-- The text behind percent-encoded characters, none if an escape or the encoding is broken. -/
def decodeText? (written : List Char) : Option String :=
  (Percent.decode written).bind fun bytes => String.fromUTF8? bytes.toByteArray

structure Segment where
  raw : String
  text : String
  raw_ne_nil : raw.toList ≠ []
  raw_chars : ∀ c ∈ raw.toList, isSegmentChar c = true
  decodes : decodeText? raw.toList = some text

namespace Segment

theorem ext_raw {a b : Segment} (h : a.raw = b.raw) : a = b := by
  obtain ⟨raw, text, _, _, ha⟩ := a
  obtain ⟨_, text', _, _, hb⟩ := b
  cases h
  rw [ha] at hb
  cases hb
  rfl

instance : DecidableEq Segment := fun a b =>
  if h : a.raw = b.raw then isTrue (ext_raw h) else isFalse fun e => h (e ▸ rfl)

inductive Fault where
  | escape
  | encoding
deriving DecidableEq, Repr

/-- Reads one written segment; a broken escape anywhere in it wins over text that is not UTF-8. -/
def read (written : List Char) (h : written ≠ [] ∧ ∀ c ∈ written, isSegmentChar c = true) :
    Except Fault Segment :=
  match Percent.decode written with
  | none => .error .escape
  | some _ =>
    match hText : decodeText? written with
    | none => .error .encoding
    | some text => .ok {
        raw := String.ofList written
        text
        raw_ne_nil := by simpa using h.1
        raw_chars := by simpa using h.2
        decodes := by simpa using hText }

end Segment
end Switchyard.Rest
