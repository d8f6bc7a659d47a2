import Storyboard.Number.Literal
import Storyboard.Settings.Toml.Reader

/-!
# Dates and times of TOML

A moment is a date, a time of day, or both with a `T` or a blank between them; a moment with both
may say how far it is from universal time. `isMoment` tells whether a word is one. No setting is a
moment, so nothing of it is kept.
-/

namespace Storyboard.Toml

open Number

/-- A number of just so many digits, from `low` to `high`. -/
def takeDigits (count low high : Nat) : Reader Nat := do
  let digits ← takeRun Char.isDigit
  let n := Literal.digitsValue digits
  if digits.length = count ∧ low ≤ n ∧ n ≤ high then return n else failure

/-- Takes one of some characters if one comes next. -/
def takeOneOf (choices : List Char) : Reader Bool := fun
  | [] => some (false, [])
  | c :: rest => if c ∈ choices then some (true, rest) else some (false, c :: rest)

def daysOf (year month : Nat) : Nat :=
  match month with
  | 2 => if year % 4 = 0 ∧ (year % 100 ≠ 0 ∨ year % 400 = 0) then 29 else 28
  | 4 | 6 | 9 | 11 => 30
  | _ => 31

def takeDate : Reader Unit := do
  let year ← takeDigits 4 0 9999
  require '-'
  let month ← takeDigits 2 1 12
  require '-'
  let _ ← takeDigits 2 1 (daysOf year month)

/-- Hours and minutes, then seconds and a fraction of them if there are any. A minute may have a
leap second. -/
def takeTime : Reader Unit := do
  let _ ← takeDigits 2 0 23
  require ':'
  let _ ← takeDigits 2 0 59
  if ← takeHere ':' then
    let _ ← takeDigits 2 0 60
    if ← takeHere '.' then
      if (← takeRun Char.isDigit).isEmpty then failure

/-- The distance from universal time, if there is one. -/
def takeOffset : Reader Unit := do
  if ← takeOneOf ['Z', 'z'] then return
  if ← takeOneOf ['+', '-'] then
    let _ ← takeDigits 2 0 23
    require ':'
    let _ ← takeDigits 2 0 59

def takeDateAndTime : Reader Unit := do
  takeDate
  if ← takeOneOf ['T', 't', ' '] then
    takeTime
    takeOffset

/-- Whether a reader takes all of a word. -/
def fills (take : Reader Unit) (word : List Char) : Bool :=
  match take.run word with
  | some (_, []) => true
  | _ => false

def isDate (word : List Char) : Bool := fills takeDate word

def isMoment (word : List Char) : Bool := fills takeDateAndTime word || fills takeTime word

end Storyboard.Toml
