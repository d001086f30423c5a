/-! # Durations

A span of time in whole nanoseconds and its text, written in the largest unit of which it holds at
least one.
-/
namespace Switchyard
set_option autoImplicit false

structure Duration where
  nanoseconds : Nat
deriving DecidableEq, Repr

namespace Duration

def ofMillis (n : Nat) : Duration := ⟨n * 1000000⟩

def ofSecs (n : Nat) : Duration := ⟨n * 1000000000⟩

def isZero (d : Duration) : Bool := d.nanoseconds == 0

/-- The decimals of `value / 10 ^ width` without trailing zeros, a point before them if any. -/
def decimals (width value : Nat) : String :=
  let digits := (Nat.toDigits 10 (Nat.pow 10 width + value)).drop 1
  let kept := (digits.reverse.dropWhile (· == '0')).reverse
  if kept.isEmpty then "" else "." ++ String.ofList kept

def inUnit (d : Duration) (width : Nat) (unit : String) : String :=
  toString (d.nanoseconds / Nat.pow 10 width) ++ decimals width (d.nanoseconds % Nat.pow 10 width) ++ unit

def text (d : Duration) : String :=
  if 1000000000 ≤ d.nanoseconds then d.inUnit 9 "s"
  else if 1000000 ≤ d.nanoseconds then d.inUnit 6 "ms"
  else if 1000 ≤ d.nanoseconds then d.inUnit 3 "µs"
  else d.inUnit 0 "ns"

end Duration
end Switchyard
