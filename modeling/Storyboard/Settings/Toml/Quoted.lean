import Storyboard.Settings.Toml.Reader

/-!
# Strings of TOML

A string stands in double quotes, with escapes, or in single quotes, without. A string in
tripled quotes may go over lines: the newline after the opening quotes is no part of it, and up to
two quotes before the closing ones are.
-/

namespace Storyboard.Toml

def hexValue? (c : Char) : Option Nat :=
  if c.isDigit then some (c.toNat - 48)
  else if 'a' ≤ c ∧ c ≤ 'f' then some (c.toNat - 87)
  else if 'A' ≤ c ∧ c ≤ 'F' then some (c.toNat - 55)
  else none

/-- The number written by hexadecimal digits. -/
def hexNumber? (digits : List Char) : Option Nat := do
  return (← digits.mapM hexValue?).foldl (fun n d => 16 * n + d) 0

/-! ### Escapes -/

/-- The character with a number written in a fixed count of hexadecimal digits. -/
def takeNumbered (count : Nat) : Reader Char := fun cs =>
  let digits := cs.take count
  if digits.length ≠ count then none
  else do
    let n ← hexNumber? digits
    if n.isValidChar then some (Char.ofNat n, cs.drop count) else none

/-- The characters that escapes with a single letter stand for. -/
def escapes : List (Char × Char) :=
  [('b', '\x08'), ('t', '\t'), ('n', '\n'), ('f', '\x0c'), ('r', '\r'), ('e', '\x1b'),
    ('"', '"'), ('\\', '\\')]

/-- The character of an escape, after its backslash. -/
def takeEscape : Reader Char := do
  match ← takeAny with
  | 'x' => takeNumbered 2
  | 'u' => takeNumbered 4
  | 'U' => takeNumbered 8
  | letter => escapes.lookup letter

/-- After a backslash: takes the end of the line and all white space that follows, if no more of
the line is left. -/
def takeLineEscape : Reader Bool := do
  let cs ← get
  blanks
  if ← takeNewline then
    skipBlankLines cs.length
    return true
  set cs
  return false

/-! ### Bodies -/

/-- The rest of a string in double quotes. -/
def takeBasic : Nat → Reader (List Char)
  | 0 => failure
  | fuel + 1 => do
    match ← takeAny with
    | '"' => return []
    | '\\' => return (← takeEscape) :: (← takeBasic fuel)
    | c => if isPlain c then return c :: (← takeBasic fuel) else failure

/-- The rest of a string in single quotes. -/
def takeVerbatim : Reader (List Char) := do
  let text ← takeRun fun c => isPlain c && c ≠ '\''
  require '\''
  return text

/-- The end of a string in tripled quotes: the quotes that belong to it, and what follows. -/
def closing? (quote : Char) (cs : List Char) : Option (List Char × List Char) :=
  let quotes := min 5 (cs.takeWhile (· = quote)).length
  if quotes < 3 then none else some (List.replicate (quotes - 3) quote, cs.drop quotes)

/-- The rest of a string in tripled quotes. Double quotes have escapes. -/
def takeTripled (quote : Char) : Nat → Reader (List Char)
  | 0 => failure
  | fuel + 1 => do
    match closing? quote (← get) with
    | some (text, rest) =>
      set rest
      return text
    | none =>
      let c ← takeAny
      if c = '\\' ∧ quote = '"' then
        if ← takeLineEscape then takeTripled quote fuel
        else return (← takeEscape) :: (← takeTripled quote fuel)
      else if c = '\r' then
        require '\n'
        return '\r' :: '\n' :: (← takeTripled quote fuel)
      else if c = '\n' ∨ isPlain c then return c :: (← takeTripled quote fuel)
      else failure

/-! ### Strings -/

/-- A string on one line, if one begins here. -/
def takeQuoted? : Reader (Option String) := do
  let size := (← get).length
  if ← takeHere '"' then return some (String.ofList (← takeBasic size))
  if ← takeHere '\'' then return some (String.ofList (← takeVerbatim))
  return none

/-- A string in tripled quotes, if one begins here. -/
def takeBlock? : Reader (Option String) := do
  let cs ← get
  let opening := cs.take 3
  if opening = ['"', '"', '"'] ∨ opening = ['\'', '\'', '\''] then
    set (cs.drop 3)
    let _ ← takeNewline
    return some (String.ofList (← takeTripled (cs.headD '"') cs.length))
  return none

end Storyboard.Toml
