import Storyboard.Diagram.Direction
import Storyboard.Diagram.Element
import Storyboard.Text.Alphanumeric
import Storyboard.Text.Blank

/-!
# Grammar of the diagram body

A line of the body is a header, a node or an edge. The readers here take a trimmed line apart
without judging it: `header?`, `nodeLine?` and `edgeLine?` say what the line is, and each of the
smaller readers gives what it has read and the rest of the line.
-/

namespace Storyboard.Document

open Text

/-- A blank inside a line. -/
def isSpace (c : Char) : Bool := c = ' ' || c = '\t'

def skipSpaces (cs : List Char) : List Char := cs.dropWhile isSpace

/-- Whether only blanks and at most one semicolon are left. -/
def atLineEnd (cs : List Char) : Bool :=
  match skipSpaces cs with
  | ';' :: rest => (skipSpaces rest).isEmpty
  | rest => rest.isEmpty

/-- A leading run of characters that satisfy `p`, if it is not empty. -/
def takeRun? (p : Char → Bool) (cs : List Char) : Option (List Char × List Char) :=
  let run := cs.takeWhile p
  if run.isEmpty then none else some (run, cs.dropWhile p)

/-- What is inside a pair of brackets at the front. The first occurrence of the closing bracket
counts, and there must be something in front of it. -/
def takeBracketed? (opening closing cs : List Char) : Option (List Char × List Char) := do
  let rest ← dropLeading? opening cs
  let (inside, after) ← splitAtMark? closing rest
  if inside.isEmpty then none else some (inside, after)

/-! ### Headers -/

/-- The word after the blanks, if there is one; otherwise the text stays as it is. -/
def takeDirection (cs : List Char) : Option (List Char) × List Char :=
  match cs with
  | c :: rest =>
    if isSpace c then
      match takeRun? Char.isAlphanum (skipSpaces rest) with
      | some (word, after) => (some word, after)
      | none => (none, cs)
    else (none, cs)
  | [] => (none, [])

/-- A header line: the word that opens a flowchart, and the direction it names, if any. -/
def header? (cs : List Char) : Option (Option String) := do
  let rest ← dropLeading? "flowchart".toList cs <|> dropLeading? "graph".toList cs
  let (direction, rest) := takeDirection rest
  if atLineEnd rest then some (direction.map String.ofList) else none

/-! ### Nodes -/

/-- An id, and the shape with its raw label if it has one. -/
structure Endpoint where
  id : String
  shape : Option (NodeShape × List Char) := none
  deriving DecidableEq, Repr, Inhabited

def isIdChar (c : Char) : Bool := isAlphanumeric c || c = '_' || c = '.'

def takeId? (cs : List Char) : Option (String × List Char) :=
  (takeRun? isIdChar cs).map fun (id, rest) => (String.ofList id, rest)

/-- The brackets of each shape. Of brackets that begin alike the longer come first. -/
def shapeBrackets : List (NodeShape × String × String) :=
  [(.terminator, "([", "])"), (.database, "[(", ")]"), (.document, "[[", "]]"),
    (.parallelogram, "[/", "/]"), (.rectangle, "[", "]"), (.diamond, "\x7b", "\x7d")]

/-- The first shape whose brackets fit, with its raw label. -/
def takeShape? (cs : List Char) : Option ((NodeShape × List Char) × List Char) :=
  shapeBrackets.findSome? fun (shape, opening, closing) =>
    (takeBracketed? opening.toList closing.toList cs).map fun (label, rest) =>
      ((shape, label), rest)

/-- An id with or without a shape. -/
def takeEndpoint? (cs : List Char) : Option (Endpoint × List Char) := do
  let (id, rest) ← takeId? cs
  match takeShape? rest with
  | some (shape, after) => some (⟨id, some shape⟩, after)
  | none => some (⟨id, none⟩, rest)

/-- A piece of syntax and the bytes of the trimmed line that it takes up. -/
structure Placed (α : Type) where
  value : α
  start : Nat
  stop : Nat
  deriving Repr, Inhabited

/-- Where something lies that was read between two rests of a line. -/
def placedBetween {α : Type} (value : α) (line before after : List Char) : Placed α :=
  ⟨value, byteLength line - byteLength before, byteLength line - byteLength after⟩

/-- A line with one node: an id and its shape. -/
def nodeLine? (cs : List Char) : Option (Placed Endpoint) := do
  let (id, rest) ← takeId? cs
  let (shape, after) ← takeShape? rest
  if atLineEnd after then some (placedBetween ⟨id, some shape⟩ cs cs after) else none

/-! ### Edges -/

/-- Every connector with the style of its line, and whether it ends in an arrowhead. -/
def connectors : List (String × EdgeStyle × Bool) :=
  [("-.->", .dashed, true), ("==>", .thick, true), ("-->", .solid, true), ("---", .solid, false)]

def takeConnector? (cs : List Char) : Option ((EdgeStyle × Bool) × List Char) :=
  connectors.findSome? fun (mark, kind) =>
    (dropLeading? mark.toList cs).map fun rest => (kind, rest)

/-- The text between two bars, with the blanks after it; otherwise the text stays as it is. -/
def takeEdgeLabel (cs : List Char) : Option (List Char) × List Char :=
  match cs with
  | '|' :: rest =>
    match splitOnce? '|' rest with
    | some (label, after) => (some label, skipSpaces after)
    | none => (none, cs)
  | _ => (none, cs)

structure EdgeLine where
  source : Placed Endpoint
  target : Placed Endpoint
  style : EdgeStyle
  directed : Bool
  label : Option (List Char)
  deriving Repr, Inhabited

/-- A line with one edge between two endpoints. -/
def edgeLine? (cs : List Char) : Option EdgeLine := do
  let (source, afterSource) ← takeEndpoint? cs
  let ((style, directed), rest) ← takeConnector? (skipSpaces afterSource)
  let (label, beforeTarget) := takeEdgeLabel (skipSpaces rest)
  let (target, afterTarget) ← takeEndpoint? beforeTarget
  if atLineEnd afterTarget then
    some
      { source := placedBetween source cs cs afterSource
        target := placedBetween target cs beforeTarget afterTarget
        style, directed, label }
  else none

end Storyboard.Document
