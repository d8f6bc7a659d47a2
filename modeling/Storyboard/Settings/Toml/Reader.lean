/-!
# Lines, blanks and comments of TOML

A reader takes the front of a text, or fails. Between the tokens of a line stand blanks; a line
ends at a newline or at the end of the text, with or without a comment before it. A carriage
return is nothing without a line feed after it.
-/

namespace Storyboard.Toml

/-- A reader of the front of a text. -/
abbrev Reader (α : Type) := StateT (List Char) Option α

def takeAny : Reader Char := fun
  | [] => none
  | c :: rest => some (c, rest)

/-- Takes the character if it comes next. -/
def takeHere (c : Char) : Reader Bool := fun
  | [] => some (false, [])
  | d :: rest => if d = c then some (true, rest) else some (false, d :: rest)

def require (c : Char) : Reader Unit := do
  unless ← takeHere c do failure

/-- The longest run of characters that satisfy `p`. -/
def takeRun (p : Char → Bool) : Reader (List Char) := fun cs =>
  some (cs.takeWhile p, cs.dropWhile p)

/-- What may stand in comments and in strings of one line, apart from quotes and escapes. -/
def isPlain (c : Char) : Bool := c = '\t' || (0x20 ≤ c.toNat && c.toNat ≠ 0x7F)

def blanks : Reader Unit := modify fun cs => cs.dropWhile fun c => c = ' ' || c = '\t'

def takeNewline : Reader Bool := fun
  | '\n' :: rest => some (true, rest)
  | '\r' :: '\n' :: rest => some (true, rest)
  | cs => some (false, cs)

/-- Takes a comment if one begins here. -/
def comment : Reader Unit := do
  if ← takeHere '#' then modify fun cs => cs.dropWhile isPlain

/-- What is left of a line that says nothing more. -/
def lineEnd : Reader Unit := do
  blanks
  comment
  if (← get).isEmpty then return
  unless ← takeNewline do failure

/-- Takes blanks and newlines; each round but the last takes a newline. -/
def skipBlankLines : Nat → Reader Unit
  | 0 => pure ()
  | fuel + 1 => do
    blanks
    if ← takeNewline then skipBlankLines fuel

/-- Takes blanks, newlines and comments; each round but the last takes a newline. -/
def skipGaps : Nat → Reader Unit
  | 0 => pure ()
  | fuel + 1 => do
    blanks
    comment
    if ← takeNewline then skipGaps fuel

def gaps : Reader Unit := do
  skipGaps ((← get).length + 1)

end Storyboard.Toml
