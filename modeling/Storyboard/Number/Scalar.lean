import Storyboard.Number.Literal

/-!
# Scalars

`Scalar` is what the diagram, the timeline and the player need of a number: arithmetic,
comparison, decimal input and output, and the powers and waves that colors and animations use.
Everything above this module is written over it, so it runs on binary floating point and can be
reasoned about on exact numbers. Times and geometry use two scalars of their own, joined by
`Narrow`.
-/

namespace Storyboard

open Number

class Scalar (α : Type) extends Add α, Sub α, Mul α, Div α, Neg α, LT α, LE α, BEq α where
  ofNat (n : Nat) : α
  ofLiteral (l : Literal) : α
  decLt (a b : α) : Decidable (a < b)
  decLe (a b : α) : Decidable (a ≤ b)
  isNaN (a : α) : Bool
  isFinite (a : α) : Bool
  floor (a : α) : α
  /-- A positive number raised to an exponent. -/
  power (a b : α) : α
  /-- The sine of `a` half turns. -/
  sinPi (a : α) : α
  /-- The cosine of `a` half turns. -/
  cosPi (a : α) : α
  /-- The sine of an angle in degrees. -/
  sinDegrees (a : α) : α
  /-- The cosine of an angle in degrees. -/
  cosDegrees (a : α) : α
  /-- The shortest text that reads back. -/
  render (a : α) : String
  /-- The text with a fixed number of decimals. -/
  renderFixed (places : Nat) (a : α) : String

/-- Rounding from one scalar to another. -/
class Narrow (T G : Type) where
  narrow : T → G

export Narrow (narrow)

namespace Scalar

variable {α : Type} [Scalar α]

instance (priority := low) instOfNat {n : Nat} : OfNat α n := ⟨ofNat n⟩

instance (priority := low) instOfScientific : OfScientific α :=
  ⟨fun m small e => ofLiteral (.finite false m (if small then -(e : Int) else e))⟩

instance instInhabited : Inhabited α := ⟨ofNat 0⟩

instance instDecidableLt (a b : α) : Decidable (a < b) := decLt a b

instance instDecidableLe (a b : α) : Decidable (a ≤ b) := decLe a b

/-- The smaller of two numbers, the second of two equal ones; one that is not a number gives way
to the other. -/
def least (a b : α) : α :=
  if isNaN a then b else if isNaN b then a else if a < b then a else b

/-- The larger of two numbers, the second of two equal ones; one that is not a number gives way
to the other. -/
def greatest (a b : α) : α :=
  if isNaN a then b else if isNaN b then a else if b < a then a else b

/-- The nearest number of `[low, high]`. What is not a number stays so. -/
def clamp (low high a : α) : α :=
  if a < low then low else if high < a then high else a

/-- Reads a finite number that fills the whole text. -/
def readFinite? (cs : List Char) : Option α :=
  match Literal.read? cs with
  | some (.finite negative m e) =>
    let value := ofLiteral (.finite negative m e)
    if isFinite value then some value else none
  | _ => none

end Scalar

end Storyboard
