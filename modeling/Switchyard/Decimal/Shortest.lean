/-! # Shortest decimals

The decimal with the fewest digits that reads back as a given binary floating point number, and the
nearest such decimal when several have that many digits.
-/
namespace Switchyard
set_option autoImplicit false

/-- `digits * 10 ^ exponent`. -/
structure Decimal where
  digits : Nat
  exponent : Int
deriving DecidableEq, Repr

/-- A positive binary number `mantissa * 2 ^ exponent`. `narrow` tells that its lower neighbour is
half as far away as its upper one. -/
structure Binary where
  mantissa : Nat
  exponent : Int
  narrow : Bool
deriving DecidableEq, Repr

namespace Binary

/-- The bit in front of the stored ones. -/
def leadingBit : Nat := 4503599627370496

/-- The parts of a positive finite double. -/
def ofFloat (x : Float) : Binary :=
  let bits := x.toBits.toNat
  let fraction := bits % leadingBit
  let biased := bits / leadingBit % 2048
  if biased = 0 then ⟨fraction, -1074, false⟩
  else ⟨leadingBit + fraction, Int.ofNat biased - 1075, fraction == 0 && biased != 1⟩

end Binary

/-- The numbers that read as one binary number, over a common positive denominator. -/
structure Interval where
  low : Nat
  value : Nat
  high : Nat
  closed : Bool
  scale : Nat

namespace Interval

/-- Quarters of a unit in the last place, brought to the grid `10 ^ grid`. -/
def of (b : Binary) (grid : Int) : Interval :=
  let exponent := b.exponent - 2
  let unit := Nat.pow 2 exponent.toNat * Nat.pow 10 (-grid).toNat
  { low := (4 * b.mantissa - if b.narrow then 1 else 2) * unit
    value := 4 * b.mantissa * unit
    high := (4 * b.mantissa + 2) * unit
    closed := b.mantissa % 2 == 0
    scale := Nat.pow 2 (-exponent).toNat * Nat.pow 10 grid.toNat }

def holds (i : Interval) (point : Nat) : Bool :=
  let p := point * i.scale
  if i.closed then i.low ≤ p && p ≤ i.high else i.low < p && p < i.high

/-- The point of the grid in the interval that is nearest to the value, the even one of two. -/
def nearest? (i : Interval) : Option Nat :=
  let below := i.value / i.scale
  let above := below + 1
  match i.holds below && below != 0, i.holds above with
  | false, false => none
  | true, false => some below
  | false, true => some above
  | true, true =>
    let toBelow := i.value - below * i.scale
    let toAbove := above * i.scale - i.value
    if toBelow < toAbove then some below
    else if toAbove < toBelow then some above
    else if below % 2 = 0 then some below else some above

end Interval

namespace Decimal

/-- Tries the grids `10 ^ grid`, `10 ^ (grid - 1)`, … in turn. -/
def search (b : Binary) : Nat → Int → Decimal
  | 0, _ => ⟨0, 0⟩
  | tries + 1, grid =>
    match (Interval.of b grid).nearest? with
    | some digits => ⟨digits, grid⟩
    | none => search b tries (grid - 1)

/-- A power of ten not below any double, from which seventeen digits always suffice. -/
def start (b : Binary) : Int :=
  let bits : Int := b.exponent + (b.mantissa.log2 + 1 : Nat)
  bits * 30103 / 100000 + 1

/-- The same number with no trailing zeros. -/
def trim : Nat → Decimal → Decimal
  | 0, d => d
  | fuel + 1, d =>
    if d.digits % 10 = 0 ∧ d.digits ≠ 0 then trim fuel ⟨d.digits / 10, d.exponent + 1⟩ else d

def shortest (b : Binary) : Decimal :=
  trim 20 (search b 20 (start b))

def digitText (d : Decimal) : List Char := Nat.toDigits 10 d.digits

end Decimal
end Switchyard
