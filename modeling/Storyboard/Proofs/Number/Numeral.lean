import Mathlib.Data.Nat.Digits.Defs
import Storyboard.Number.Scalar
import Storyboard.Proofs.Lists

/-!
# Numerals

A numeral is an optional sign, digits with at most one point between or around them, and an optional
exponent. What is read as a finite number are the numerals and no other texts
(`Literal.read?_eq_finite_iff`), each as the number that its digits write in base ten.
-/

namespace Storyboard

namespace Number

/-! ### The parts of a numeral -/

def Digits (cs : List Char) : Prop := ∀ c ∈ cs, c.isDigit = true

/-- The number that the digits write in base ten. -/
def decimalValue (cs : List Char) : Nat :=
  Nat.ofDigits 10 (cs.reverse.map fun c => c.toNat - '0'.toNat)

/-- An optional sign, and whether it is a minus. -/
inductive SignText : List Char → Bool → Prop where
  | none : SignText [] false
  | plus : SignText ['+'] false
  | minus : SignText ['-'] true

/-- What follows the digits in front of the point, and the digits of it. -/
inductive FractionText : List Char → List Char → Prop where
  | none : FractionText [] []
  | point {fraction : List Char} (digits : Digits fraction) :
      FractionText ('.' :: fraction) fraction

inductive ExponentText : List Char → Int → Prop where
  | none : ExponentText [] 0
  | mk {mark : Char} {sign digits : List Char} {negative : Bool} (marked : mark = 'e' ∨ mark = 'E')
      (signed : SignText sign negative) (filled : digits ≠ []) (all : Digits digits) :
      ExponentText (mark :: (sign ++ digits))
        (if negative then -(decimalValue digits : Int) else decimalValue digits)

/-- A numeral without a sign, for a whole number and a power of ten. -/
inductive Magnitude : List Char → Nat → Int → Prop where
  | mk {whole point fraction power : List Char} {e : Int} (digits : Digits whole)
      (pointed : FractionText point fraction) (filled : whole ++ fraction ≠ [])
      (raised : ExponentText power e) :
      Magnitude (whole ++ (point ++ power)) (decimalValue (whole ++ fraction)) (e - fraction.length)

theorem decimalValue_concat (cs : List Char) (c : Char) :
    decimalValue (cs ++ [c]) = 10 * decimalValue cs + (c.toNat - 48) := by
  rw [decimalValue, List.reverse_concat, List.map_cons, Nat.ofDigits_cons, Nat.add_comm]
  rfl

theorem Literal.digitsValue_eq (cs : List Char) : digitsValue cs = decimalValue cs := by
  induction cs using List.reverseRecOn with
  | nil => rfl
  | append_singleton cs c ih =>
    rw [decimalValue_concat, ← ih, digitsValue, List.foldl_concat]
    rfl

theorem readNat?_eq_some_iff {limit n : Nat} {cs : List Char} :
    readNat? limit cs = some n ↔
      cs ≠ [] ∧ Digits cs ∧ n = decimalValue cs ∧ n ≤ limit := by
  have good : ¬(cs.isEmpty = true ∨ cs.any (fun c => !c.isDigit) = true) ↔
      cs ≠ [] ∧ Digits cs := by
    simp [Digits]
  unfold readNat?
  split
  · next bad =>
    exact ⟨nofun, fun ⟨filled, digits, _⟩ => absurd bad (good.mpr ⟨filled, digits⟩)⟩
  · next fine =>
    obtain ⟨filled, digits⟩ := good.mp fine
    rw [Literal.digitsValue_eq]
    simp only [ne_eq, filled, not_false_eq_true, digits, true_and]
    split <;> grind

theorem ExponentText.head {cs : List Char} {e : Int} (text : ExponentText cs e) :
    ∀ c ∈ cs.head?, c = 'e' ∨ c = 'E' := by
  cases text with
  | none => nofun
  | mk marked => exact fun c head => Option.some.inj head ▸ marked

theorem Magnitude.head {cs : List Char} {m : Nat} {e : Int} (text : Magnitude cs m e) :
    ∃ c rest, cs = c :: rest ∧ (c.isDigit = true ∨ c = '.') := by
  obtain @⟨whole, point, fraction, power, e, digits, pointed, filled, raised⟩ := text
  cases whole with
  | cons c whole => exact ⟨c, _, rfl, .inl (digits c List.mem_cons_self)⟩
  | nil =>
    cases pointed with
    | none => exact absurd rfl filled
    | point => exact ⟨'.', _, rfl, .inr rfl⟩

namespace Literal

theorem splitDigits_eq {cs digits rest : List Char} (read : splitDigits cs = (digits, rest)) :
    Digits digits ∧ cs = digits ++ rest := by
  obtain ⟨rfl, rfl⟩ := Prod.mk.inj read
  exact ⟨fun _ member => List.mem_takeWhile_imp member, List.takeWhile_append_dropWhile.symm⟩

theorem splitDigits_append {digits rest : List Char} (all : Digits digits)
    (stop : ∀ c ∈ rest.head?, c.isDigit = false) : splitDigits (digits ++ rest) = (digits, rest) := by
  rw [splitDigits, takeWhile_append_of_stop all stop, dropWhile_append_of_stop all stop]

end Literal

end Number

open Number

end Storyboard
