import Storyboard.Number.Binary

/-!
# Decimal text of binary values

`shortest` gives the fewest decimal digits that read back as a given binary value, and of
those the closest. `BinaryFormat.render` writes them positionally, never with an exponent;
`BinaryFormat.renderFixed` rounds the exact value to a fixed number of places.
-/

namespace Storyboard.Number

/-- The number `digits * 10 ^ exponent`. -/
structure Decimal where
  digits : Nat
  exponent : Int
  deriving DecidableEq, Repr

namespace Decimal

/-- Moves the trailing zeros of the digits into the exponent, at most `fuel` of them. -/
def strip : Nat → Decimal → Decimal
  | 0, d => d
  | fuel + 1, d =>
    if d.digits ≠ 0 ∧ d.digits % 10 = 0 then strip fuel ⟨d.digits / 10, d.exponent + 1⟩ else d

/-- All digits in place, with a point only where there are decimals. -/
def positional (d : Decimal) : String :=
  if 0 ≤ d.exponent then toString (d.digits * Nat.pow 10 d.exponent.toNat)
  else
    let places := (-d.exponent).toNat
    let whole := d.digits / Nat.pow 10 places
    let part := toString (d.digits % Nat.pow 10 places)
    toString whole ++ "." ++ String.ofList (List.replicate (places - part.length) '0') ++ part

end Decimal

/-- An interval of reals around a value, all three over one denominator. -/
structure RoundingInterval where
  low : Nat
  value : Nat
  high : Nat
  denominator : Nat
  /-- Whether the end points belong to it. -/
  closed : Bool

namespace RoundingInterval

def contains (i : RoundingInterval) (num : Nat) : Bool :=
  if i.closed then decide (i.low ≤ num ∧ num ≤ i.high) else decide (i.low < num ∧ num < i.high)

/-- The better of the two neighbours of the value on the grid of the multiples of
`10 ^ exponent`, if one of them lies in the interval. -/
def onGrid? (i : RoundingInterval) (exponent : Int) : Option Nat :=
  -- Everything is scaled so that a grid step is the whole number `step`.
  let scale := Nat.pow 10 (-exponent).toNat
  let step := i.denominator * Nat.pow 10 exponent.toNat
  let j : RoundingInterval :=
    ⟨i.low * scale, i.value * scale, i.high * scale, i.denominator, i.closed⟩
  let below := j.value / step
  let above := below + 1
  match j.contains (below * step), j.contains (above * step) with
  | true, true => some (if 2 * (j.value - below * step) < step then below else above)
  | true, false => some below
  | false, true => some above
  | false, false => none

/-- Tries finer and finer grids, starting from the multiples of `10 ^ exponent`. -/
def refine (i : RoundingInterval) : Nat → Int → Decimal
  | 0, exponent => ⟨i.value * Nat.pow 10 (-exponent).toNat / i.denominator, exponent⟩
  | fuel + 1, exponent =>
    match i.onGrid? exponent with
    | some digits => ⟨digits, exponent⟩
    | none => refine i fuel (exponent - 1)

end RoundingInterval

namespace BinaryFormat

/-- The reals that round to `magnitude * 2 ^ exponent`. The gap below a power of two is half
the gap above it. -/
def interval (f : BinaryFormat) (magnitude : Nat) (exponent : Int) : RoundingInterval :=
  let atPower := decide (magnitude = Nat.pow 2 (f.precision - 1) ∧ f.minExponent < exponent)
  let shift := Nat.pow 2 (exponent - 2).toNat
  { low := (4 * magnitude - (if atPower then 1 else 2)) * shift
    value := 4 * magnitude * shift
    high := (4 * magnitude + 2) * shift
    denominator := Nat.pow 2 (2 - exponent).toNat
    closed := magnitude % 2 == 0 }

/-- The fewest digits that read back as `magnitude * 2 ^ exponent`. -/
def shortest (f : BinaryFormat) (magnitude : Nat) (exponent : Int) : Decimal :=
  let binaryDigits : Int := magnitude.log2 + 1 + exponent
  -- A power of ten above the value: 1/3 exceeds the logarithm of 2.
  let top : Int := if 0 ≤ binaryDigits then binaryDigits / 3 + 1 else binaryDigits / 4 + 1
  let fuel := (top - exponent).toNat + f.precision + 4
  ((f.interval magnitude exponent).refine fuel top).strip f.precision

/-- The shortest positional text that reads back. -/
def render (f : BinaryFormat) (bits : Nat) : String :=
  match f.decode bits with
  | .nan => "NaN"
  | .infinite negative => if negative then "-inf" else "inf"
  | .finite negative magnitude exponent =>
    let text := if magnitude = 0 then "0" else (f.shortest magnitude exponent).positional
    if negative then "-" ++ text else text

/-- The exact value rounded to `places` decimals, a half going to the even digit. -/
def renderFixed (f : BinaryFormat) (places : Nat) (bits : Nat) : String :=
  match f.decode bits with
  | .nan => "NaN"
  | .infinite negative => if negative then "-inf" else "inf"
  | .finite negative magnitude exponent =>
    let scaled := magnitude * Nat.pow 10 places * Nat.pow 2 exponent.toNat
    let digits := divNearestEven scaled (Nat.pow 2 (-exponent).toNat)
    let text := (Decimal.mk digits (-places)).positional
    if negative then "-" ++ text else text

end BinaryFormat

end Storyboard.Number
