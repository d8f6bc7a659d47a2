import Mathlib.Algebra.Order.Field.Basic
import Mathlib.Algebra.Order.Field.Rat
import Mathlib.Data.Rat.Floor
import Mathlib.Tactic.Linarith
import Mathlib.Tactic.Positivity
import Storyboard.Number.Scalar

/-!
# Exact scalars

An exact scalar is an ordered field whose arithmetic is the arithmetic of `Scalar`: nothing is
rounded, every number is finite, and a decimal is the number it says. Powers, waves and texts
are whatever the field brings with it.
-/

namespace Storyboard

open Number

class ExactScalar (α : Type) extends Field α, LinearOrder α, IsStrictOrderedRing α where
  floor (a : α) : α
  power (a b : α) : α
  sinPi (a : α) : α
  cosPi (a : α) : α
  sinDegrees (a : α) : α
  cosDegrees (a : α) : α
  render (a : α) : String
  renderFixed (places : Nat) (a : α) : String

namespace ExactScalar

variable {α : Type} [ExactScalar α]

/-- What is not a number, or not a finite one, is never read as a scalar. -/
def ofLiteral : Literal → α
  | .finite negative m e => if negative then -(m * (10 : α) ^ e) else m * (10 : α) ^ e
  | .nan | .infinite _ => 0

instance toScalar : Scalar α where
  toAdd := inferInstance
  toSub := inferInstance
  toMul := inferInstance
  toDiv := inferInstance
  toNeg := inferInstance
  toLT := inferInstance
  toLE := inferInstance
  beq a b := decide (a = b)
  ofNat n := (n : α)
  ofLiteral := ofLiteral
  decLt := inferInstance
  decLe := inferInstance
  isNaN _ := false
  isFinite _ := true
  floor := floor
  power := power
  sinPi := sinPi
  cosPi := cosPi
  sinDegrees := sinDegrees
  cosDegrees := cosDegrees
  render := render
  renderFixed := renderFixed

instance : LawfulBEq α where
  eq_of_beq h := of_decide_eq_true h
  rfl := decide_eq_true rfl

/-! ### Numerals -/

@[simp] theorem ofNat_eq (n : Nat) : (Scalar.ofNat n : α) = n := rfl

@[simp] theorem zero_eq : @OfNat.ofNat α 0 Scalar.instOfNat = (0 : α) := Nat.cast_zero

@[simp] theorem one_eq : @OfNat.ofNat α 1 Scalar.instOfNat = (1 : α) := Nat.cast_one

theorem decimal_eq (m n : Nat) :
    @OfScientific.ofScientific α Scalar.instOfScientific m true n = m * (10 : α) ^ (-(n : Int)) := rfl

/-! ### Comparison -/

@[simp] theorem isNaN_eq (a : α) : Scalar.isNaN a = false := rfl

@[simp] theorem isFinite_eq (a : α) : Scalar.isFinite a = true := rfl

@[simp] theorem least_eq (a b : α) : Scalar.least a b = min a b := by
  unfold Scalar.least
  rcases lt_or_ge a b with less | more
  · simp [less, less.le]
  · simp [more, not_lt.mpr more]

@[simp] theorem greatest_eq (a b : α) : Scalar.greatest a b = max a b := by
  unfold Scalar.greatest
  rcases lt_or_ge b a with less | more
  · simp [less, less.le]
  · simp [more, not_lt.mpr more]

theorem clamp_of_mem {low high a : α} (above : low ≤ a) (below : a ≤ high) :
    Scalar.clamp low high a = a := by
  unfold Scalar.clamp
  rw [if_neg (not_lt.mpr above), if_neg (not_lt.mpr below)]

theorem clamp_eq {low high : α} (a : α) (ordered : low ≤ high) :
    Scalar.clamp low high a = max low (min a high) := by
  unfold Scalar.clamp
  rcases lt_or_ge a low with below | above
  · rw [if_pos below, max_eq_left ((min_le_left a high).trans below.le)]
  · rw [if_neg (not_lt.mpr above), max_eq_right (le_min above ordered)]
    rcases lt_or_ge high a with beyond | within
    · rw [if_pos beyond, min_eq_right beyond.le]
    · rw [if_neg (not_lt.mpr within), min_eq_left within]

theorem clamp_mem {low high : α} (a : α) (ordered : low ≤ high) :
    low ≤ Scalar.clamp low high a ∧ Scalar.clamp low high a ≤ high := by
  unfold Scalar.clamp
  split
  · exact ⟨le_refl low, ordered⟩
  · split
    · exact ⟨ordered, le_refl high⟩
    · rename_i above below
      exact ⟨not_lt.mp above, not_lt.mp below⟩

end ExactScalar

/-- Rounding between exact scalars: it keeps the order and the ends of the unit interval. -/
class ExactNarrow (T G : Type) [ExactScalar T] [ExactScalar G] extends Narrow T G where
  narrow_zero : narrow 0 = 0
  narrow_one : narrow 1 = 1
  narrow_mono : Monotone narrow

namespace ExactNarrow

variable {T G : Type} [ExactScalar T] [ExactScalar G] [ExactNarrow T G]

theorem narrow_nonneg {a : T} (nonneg : 0 ≤ a) : 0 ≤ (narrow a : G) := by
  rw [← narrow_zero (T := T)]
  exact narrow_mono nonneg

theorem pos_of_narrow_pos {a : T} (positive : 0 < (narrow a : G)) : 0 < a := by
  by_contra small
  have rounded : (narrow a : G) ≤ narrow (0 : T) := narrow_mono (not_lt.mp small)
  rw [narrow_zero] at rounded
  exact absurd positive (not_lt.mpr rounded)

end ExactNarrow

/-- What is not rounded. -/
instance (T : Type) [ExactScalar T] : ExactNarrow T T where
  narrow := id
  narrow_zero := rfl
  narrow_one := rfl
  narrow_mono := monotone_id

/-- The rational numbers. Their waves are not rational; parabolas and lines stand in for them. -/
instance : ExactScalar Rat where
  floor a := a.floor
  power a b := a ^ b.floor
  sinPi a := 4 * a * (1 - a)
  cosPi a := 1 - 2 * a
  sinDegrees a := 4 * (a / 180) * (1 - a / 180)
  cosDegrees a := 1 - 2 * (a / 180)
  render a := toString a
  renderFixed _ a := toString a

end Storyboard
