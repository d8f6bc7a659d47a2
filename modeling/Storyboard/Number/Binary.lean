/-!
# Binary floating-point formats

A binary format is given by the width of its significand and of its exponent field.
`decode` splits a bit pattern into sign and exact magnitude, and `nearest` finds the bit
pattern closest to a decimal, ties to the even significand.
-/

namespace Storyboard.Number

/-- `a / b` rounded to the nearest integer, a half going to the even neighbour. -/
def divNearestEven (a b : Nat) : Nat :=
  let q := a / b
  let twice := 2 * (a % b)
  if twice < b then q else if b < twice then q + 1 else q + q % 2

/-- A binary interchange format. -/
structure BinaryFormat where
  /-- Significand bits, the hidden one included. -/
  precision : Nat
  /-- Width of the exponent field. -/
  exponentBits : Nat

/-- What a bit pattern stands for: `magnitude * 2 ^ exponent` if it is finite. -/
inductive BinaryValue where
  | nan
  | infinite (negative : Bool)
  | finite (negative : Bool) (magnitude : Nat) (exponent : Int)
  deriving DecidableEq, Repr

namespace BinaryFormat

def single : BinaryFormat := ⟨24, 8⟩

def double : BinaryFormat := ⟨53, 11⟩

/-- The exponent of the smallest positive value. -/
def minExponent (f : BinaryFormat) : Int :=
  3 - (Nat.pow 2 (f.exponentBits - 1) : Nat) - f.precision

/-- The pattern of positive infinity: an exponent field of ones alone. -/
def infinityBits (f : BinaryFormat) : Nat :=
  (Nat.pow 2 f.exponentBits - 1) * Nat.pow 2 (f.precision - 1)

def signBit (f : BinaryFormat) : Nat :=
  Nat.pow 2 (f.exponentBits + f.precision - 1)

def decode (f : BinaryFormat) (bits : Nat) : BinaryValue :=
  let negative := decide (f.signBit ≤ bits)
  let rest := bits % f.signBit
  let hidden := Nat.pow 2 (f.precision - 1)
  let field := rest / hidden
  let fraction := rest % hidden
  if f.infinityBits < rest then .nan
  else if rest = f.infinityBits then .infinite negative
  else if field = 0 then .finite negative fraction f.minExponent
  else .finite negative (hidden + fraction) (f.minExponent + (field - 1 : Nat))

/-- The greatest `e` with `2 ^ e ≤ num / den`, for positive `num` and `den`. -/
def floorLog2 (num den : Nat) : Int :=
  let e : Int := (num.log2 : Int) - den.log2
  let fits :=
    if 0 ≤ e then den * Nat.pow 2 e.toNat ≤ num else den ≤ num * Nat.pow 2 (-e).toNat
  if fits then e else e - 1

/-- The pattern of the value nearest to `num / den`. -/
def nearestQuotient (f : BinaryFormat) (num den : Nat) : Nat :=
  if num = 0 then 0
  else
    let unit := max f.minExponent (floorLog2 num den - (f.precision - 1 : Nat))
    let significand :=
      if 0 ≤ unit then divNearestEven num (den * Nat.pow 2 unit.toNat)
      else divNearestEven (num * Nat.pow 2 (-unit).toNat) den
    let steps := (unit - f.minExponent).toNat
    min f.infinityBits (steps * Nat.pow 2 (f.precision - 1) + significand)

/-- The pattern of the value nearest to `mantissa * 10 ^ exponent`. A decimal too large or
too small for any value but infinity or zero is settled before its power of ten is built. -/
def nearest (f : BinaryFormat) (mantissa : Nat) (exponent : Int) : Nat :=
  let limit : Int := (Nat.pow 2 f.exponentBits : Nat)
  if mantissa = 0 then 0
  else if limit < exponent then f.infinityBits
  else if 3 * (exponent + limit) + mantissa.log2 + 1 < 0 then 0
  else if 0 ≤ exponent then f.nearestQuotient (mantissa * Nat.pow 10 exponent.toNat) 1
  else f.nearestQuotient mantissa (Nat.pow 10 (-exponent).toNat)

end BinaryFormat

end Storyboard.Number
