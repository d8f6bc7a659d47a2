import Storyboard.Text.Blank

/-!
# Captions
-/

namespace Storyboard

/-- What is shown and said while a step runs. -/
structure Caption where
  step : Nat
  title : String
  text : String
  deriving DecidableEq, Repr, Inhabited

/-- What is said: the text, or else the title, without white space at the ends. -/
def Caption.spoken? (c : Caption) : Option String :=
  [Text.trimString c.text, Text.trimString c.title].find? (fun s => !s.isEmpty)

end Storyboard
