import Storyboard.Number.Literal
import Storyboard.Text.Blank

/-!
# Lines of blocks

The two forms that lines inside blocks share: `key: value`, and the label `step N:` that opens
an entry.
-/

namespace Storyboard.Document

open Number Text

/-- The key and the value of a trimmed line, split at its first colon. The key is not empty. -/
def splitProperty? (cs : List Char) : Option (List Char × List Char) := do
  let (key, value) ← splitOnce? ':' cs
  let key := trim key
  if key.isEmpty then none else some (key, trim value)

/-- Whether a line means to open an entry. -/
def looksLikeStep (cs : List Char) : Bool :=
  match dropLeading? "step".toList cs with
  | some (c :: _) => isBlank c || c.isDigit
  | _ => false

/-- The greatest step number. -/
def maxStepNumber : Nat := 4294967295

/-- Blanks inside a label of a step. -/
def skipLabelSpaces (cs : List Char) : List Char :=
  cs.dropWhile (fun c => c = ' ' || c = '\t')

/-- The number of a step label, and what follows its colon. -/
def takeStepLabel? (cs : List Char) : Option (Nat × List Char) := do
  let rest := skipLabelSpaces (← dropLeading? "step".toList cs)
  let (digits, rest) := Literal.splitDigits rest
  let number ← readNat? maxStepNumber digits
  match skipLabelSpaces rest with
  | ':' :: after => some (number, after)
  | _ => none

end Storyboard.Document
