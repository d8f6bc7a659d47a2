/-!
# Number literals

The grammar of numeric text: an optional sign, then digits with an optional point and an
optional exponent, or one of the words for infinity and not-a-number in any letter case.
-/

namespace Storyboard.Number

/-- A number as it is written. -/
inductive Literal where
  | nan
  | infinite (negative : Bool)
  /-- The number `mantissa * 10 ^ exponent`, with its sign. -/
  | finite (negative : Bool) (mantissa : Nat) (exponent : Int)
  deriving DecidableEq, Repr

namespace Literal

/-- The number written by a run of decimal digits. -/
def digitsValue (cs : List Char) : Nat :=
  cs.foldl (fun n c => 10 * n + (c.toNat - 48)) 0

/-- An optional sign, and whether it is a minus. -/
def splitSign : List Char → Bool × List Char
  | '+' :: rest => (false, rest)
  | '-' :: rest => (true, rest)
  | cs => (false, cs)

/-- A leading run of digits and what follows it. -/
def splitDigits (cs : List Char) : List Char × List Char :=
  (cs.takeWhile Char.isDigit, cs.dropWhile Char.isDigit)

/-- The digits after a point, if there is one. -/
def splitFraction : List Char → List Char × List Char
  | '.' :: rest => splitDigits rest
  | cs => ([], cs)

/-- An exponent mark with its digits, up to the end of the text. Nothing means exponent zero. -/
def exponent? : List Char → Option Int
  | [] => some 0
  | c :: rest =>
    if c = 'e' ∨ c = 'E' then
      let (negative, rest) := splitSign rest
      let (digits, rest) := splitDigits rest
      if digits.isEmpty ∨ rest ≠ [] then none
      else some (if negative then -(digitsValue digits : Int) else digitsValue digits)
    else none

/-- The unsigned part of a finite literal. -/
def magnitude? (cs : List Char) : Option (Nat × Int) :=
  let (whole, rest) := splitDigits cs
  let (fraction, rest) := splitFraction rest
  if whole.isEmpty ∧ fraction.isEmpty then none
  else (exponent? rest).map fun e => (digitsValue (whole ++ fraction), e - fraction.length)

/-- Reads a whole text as a literal. -/
def read? (cs : List Char) : Option Literal :=
  let (negative, rest) := splitSign cs
  let word := rest.map Char.toLower
  if word = "inf".toList ∨ word = "infinity".toList then some (.infinite negative)
  else if word = "nan".toList then some .nan
  else (magnitude? rest).map fun (m, e) => .finite negative m e

end Literal

/-- A whole number without a sign, at most `limit`. -/
def readNat? (limit : Nat) (cs : List Char) : Option Nat :=
  if cs.isEmpty ∨ cs.any (fun c => !c.isDigit) then none
  else
    let n := Literal.digitsValue cs
    if n ≤ limit then some n else none

end Storyboard.Number
