import Storyboard.Settings.Toml.Definitions
import Storyboard.Settings.Toml.Word

/-!
# Settings files

Settings files are TOML documents: tables of strings, numbers, truth values, moments, lists and
inline tables. `Toml.read?` gives the tables of a document, or nothing if the text is not of that
form or defines something twice.
-/

namespace Storyboard.Toml

open Text

/-! ### Keys -/

def isBareKey (c : Char) : Bool := c.isAlphanum || c = '_' || c = '-'

/-- One part of a key. -/
def takeKeyPart : Reader String := do
  if let some part ← takeQuoted? then return part
  let bare ← takeRun isBareKey
  if bare.isEmpty then failure
  return String.ofList bare

/-- The greatest number of parts of a key, and of lists and inline tables within one another. -/
def deepest : Nat := 80

/-- A key of one or more parts with points between them, and the blanks around it. -/
def takeKeyParts : Nat → Reader (List String)
  | 0 => failure
  | fuel + 1 => do
    blanks
    let part ← takeKeyPart
    blanks
    if ← takeHere '.' then return part :: (← takeKeyParts fuel)
    return [part]

def takeKey : Reader (List String) := takeKeyParts deepest

/-! ### Values -/

/-- The levels that are left within a list or an inline table. -/
def below : Nat → Reader Nat
  | 0 => failure
  | levels + 1 => return levels

mutual

/-- A value with no more lists and inline tables within one another than there are levels. Of
every two rounds one takes a character, so twice the length of the text is enough of them. -/
def takeValue : Nat → Nat → Reader ConfigValue
  | 0, _ => failure
  | fuel + 1, levels => do
    if ← takeHere '[' then return .list false (← takeItems fuel (← below levels))
    if ← takeHere '\x7b' then return (← takeEntries fuel (← below levels) {}).root
    if let some text ← takeBlock? then return .text text
    if let some text ← takeQuoted? then return .text text
    takeWord

/-- The items of a list and its end. -/
def takeItems : Nat → Nat → Reader (List ConfigValue)
  | 0, _ => failure
  | fuel + 1, levels => do
    gaps
    if ← takeHere ']' then return []
    let v ← takeValue fuel levels
    gaps
    if ← takeHere ',' then return v :: (← takeItems fuel levels)
    require ']'
    return [v]

/-- The entries of an inline table and its end. -/
def takeEntries : Nat → Nat → Definitions → Reader Definitions
  | 0, _, _ => failure
  | fuel + 1, levels, d => do
    gaps
    if ← takeHere '\x7d' then return d
    let key ← takeKey
    gaps
    require '='
    gaps
    let d ← d.addEntry? key (← takeValue fuel levels)
    gaps
    if ← takeHere ',' then takeEntries fuel levels d
    else
      require '\x7d'
      return d

end

/-! ### Documents -/

/-- What a line says, if it says anything. -/
def takeStatement (d : Definitions) : Reader Definitions := do
  blanks
  if ← takeHere '[' then
    let isRow ← takeHere '['
    let path ← takeKey
    require ']'
    if isRow then
      require ']'
      d.addRowHeader? path
    else d.addHeader? path
  else
    let cs ← get
    if cs.head?.all fun c => c = '#' || c = '\n' || c = '\r' then return d
    let key ← takeKey
    require '='
    blanks
    d.addEntry? key (← takeValue (2 * cs.length) deepest)

/-- The lines of a document, each of which takes a character. -/
def takeLines : Nat → Definitions → Reader Definitions
  | 0, d => return d
  | fuel + 1, d => do
    if (← get).isEmpty then return d
    let d ← takeStatement d
    lineEnd
    takeLines fuel d

/-- The tables of a document. A byte order mark in front of it is no part of it. -/
def read? (text : String) : Option ConfigValue :=
  let cs := (dropLeading? ['\ufeff'] text.toList).getD text.toList
  (takeLines cs.length {} cs).map fun (d, _) => d.root

end Storyboard.Toml
