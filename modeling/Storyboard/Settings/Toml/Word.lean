import Storyboard.Number.Binary
import Storyboard.Settings.Toml.Moment
import Storyboard.Settings.Toml.Quoted
import Storyboard.Settings.Value
import Storyboard.Text.Blank

/-!
# Words of TOML

Truth values, numbers and moments. A number in digits has single underscores between digits at most, and no
zero in front of other digits. A whole number is kept if 64 bits hold it, with a sign or without;
one with a fraction or an exponent may not be too large for a finite value.
-/

namespace Storyboard.Toml

open Number Text

/-- Digits with single underscores between them, without the underscores. -/
def digitGroups? (isDigit : Char → Bool) (cs : List Char) : Option (List Char) :=
  let groups := splitWhere (· = '_') cs
  if groups.any List.isEmpty ∨ groups.any (fun g => g.any (fun c => !isDigit c)) then none
  else some groups.flatten

/-- A whole number in digits, with no zero in front of other digits. -/
def decimal? (cs : List Char) : Option (List Char) := do
  let digits ← digitGroups? Char.isDigit cs
  if digits.length ≠ 1 ∧ digits.head? = some '0' then none else some digits

/-- A whole number in base two, eight or sixteen, after its mark. -/
def inBase? (base : Nat) (cs : List Char) : Option Nat := do
  let digits ← digitGroups? (fun c => (hexValue? c).any (· < base)) cs
  let values ← digits.mapM hexValue?
  return values.foldl (fun n d => base * n + d) 0

/-- Whether a whole number fits into some bits: as a signed number if it has a minus sign, as an
unsigned one otherwise. -/
def fits (bits : Nat) (negative : Bool) (n : Nat) : Bool :=
  if negative then n ≤ Nat.pow 2 (bits - 1) else n < Nat.pow 2 bits

/-- A whole number. Zero has no sign; one that no setting can hold is still a value, as long as it
fits into 128 bits. -/
def whole? (negative : Bool) (n : Nat) : Option ConfigValue :=
  if fits 64 negative n then some (.number true (.finite (negative && n ≠ 0) n 0))
  else if fits 128 negative n then some .other
  else none

/-- A number with a fraction or an exponent. -/
def fractional? (negative : Bool) (digits : Nat) (exponent : Int) : Option ConfigValue :=
  if BinaryFormat.double.nearest digits exponent < BinaryFormat.double.infinityBits then
    some (.number false (.finite negative digits exponent))
  else none

/-- The parts of a decimal number: before the point, after it, and the exponent. -/
def numberParts (cs : List Char) : List Char × Option (List Char) × Option (List Char) :=
  let isMark (c : Char) := c = 'e' || c = 'E'
  let body := cs.takeWhile (fun c => !isMark c)
  let exponent := match cs.dropWhile (fun c => !isMark c) with
    | [] => none
    | _ :: rest => some rest
  match splitOnce? '.' body with
  | some (whole, fraction) => (whole, some fraction, exponent)
  | none => (body, none, exponent)

/-- An exponent, after its mark. -/
def exponent? (cs : List Char) : Option Int := do
  let (minus, digits) := Literal.splitSign cs
  let size : Int := Literal.digitsValue (← digitGroups? Char.isDigit digits)
  return if minus then -size else size

/-- A number without its sign. -/
def unsigned? (negative : Bool) (cs : List Char) : Option ConfigValue :=
  if cs = "inf".toList then some (.number false (.infinite negative))
  else if cs = "nan".toList then some (.number false .nan)
  else
    let (whole, fraction, exponent) := numberParts cs
    do
      let whole ← decimal? whole
      if fraction.isNone ∧ exponent.isNone then whole? negative (Literal.digitsValue whole)
      else
        let fraction ← (fraction.map (digitGroups? Char.isDigit)).getD (some [])
        let e ← (exponent.map exponent?).getD (some 0)
        fractional? negative (Literal.digitsValue (whole ++ fraction)) (e - fraction.length)

/-- A value that is no string. A moment is a record without any field that a setting has. -/
def word? (cs : List Char) : Option ConfigValue :=
  if isMoment cs then some (.table [])
  else match cs with
  | ['t', 'r', 'u', 'e'] => some (.bool true)
  | ['f', 'a', 'l', 's', 'e'] => some (.bool false)
  | '0' :: 'x' :: digits => (inBase? 16 digits).bind (whole? false)
  | '0' :: 'o' :: digits => (inBase? 8 digits).bind (whole? false)
  | '0' :: 'b' :: digits => (inBase? 2 digits).bind (whole? false)
  | cs =>
    let (negative, rest) := Literal.splitSign cs
    unsigned? negative rest

/-- The characters of words: letters, digits and the marks of numbers and moments. -/
def isWordPart (c : Char) : Bool :=
  c.isAlphanum || c = '_' || c = '+' || c = '-' || c = '.' || c = ':'

/-- The value of the longest run of the characters of words. A date takes what follows it after a
blank. -/
def takeWord : Reader ConfigValue := do
  let word ← takeRun isWordPart
  match ← get with
  | ' ' :: c :: rest =>
    if isDate word ∧ isWordPart c then
      set (c :: rest)
      word? (word ++ ' ' :: (← takeRun isWordPart))
    else word? word
  | _ => word? word

end Storyboard.Toml
