import Storyboard.Diagram.Property
import Storyboard.Document.Fault
import Storyboard.Document.Grammar
import Storyboard.Document.Line

/-!
# The flowchart of a document

The body of a document declares nodes and joins them by edges. The first declaration of a node
counts; an endpoint that is declared nowhere becomes a rectangle named by its id, after all
declared nodes.
-/

namespace Storyboard.Document

open Text

/-- The pieces of a text between the occurrences of a mark; each round drops a character. -/
def splitAtMarks (mark : List Char) : Nat → List Char → List (List Char)
  | 0, cs => [cs]
  | fuel + 1, cs =>
    match splitAtMark? mark cs with
    | some (before, after) => before :: splitAtMarks mark fuel after
    | none => [cs]

/-- The lines of a label, which are set apart by break marks. -/
def labelLines (cs : List Char) : List String :=
  let pieces := (splitAtMarks "<br/>".toList cs.length cs).flatMap fun piece =>
    splitAtMarks "<br>".toList piece.length piece
  pieces.map fun piece => String.ofList (trim piece)

/-- The first line of a raw label, and its further lines as one subtitle. -/
def splitLabel (raw : List Char) : String × Option String :=
  match labelLines (stripQuotes (trim raw)) with
  | [] => ("", none)
  | label :: rest =>
    let subtitle := "\n".intercalate rest
    (label, if subtitle.isEmpty then none else some subtitle)

/-- What has been read of a flowchart. -/
structure Flowchart (G : Type) where
  direction : Direction := .leftRight
  headerSeen : Bool := false
  /-- Declared nodes with the places of their declarations. -/
  declared : List (Node G × Span) := []
  /-- Endpoints without a declaration so far. -/
  undeclared : List String := []
  edges : List (Edge G) := []
  deriving Repr, Inhabited

namespace Flowchart

variable {G : Type}

def declaration? (f : Flowchart G) (id : String) : Option (Node G × Span) :=
  f.declared.find? (fun d => d.1.id == id)

/-- Notes an endpoint: it declares a node if it has a shape. -/
def declare (f : Flowchart G) (l : Line) (e : Placed Endpoint) :
    Flowchart G × List Diagnostic :=
  let id := e.value.id
  let span : Span := ⟨l.start + e.start, l.start + e.stop⟩
  match e.value.shape, f.declaration? id with
  | none, some _ => (f, [])
  | none, none =>
    if f.undeclared.contains id then (f, [])
    else ({ f with undeclared := f.undeclared ++ [id] }, [])
  | some _, some (_, first) => (f, [(Fault.duplicateNode id first).located span])
  | some (shape, raw), none =>
    let (label, subtitle) := splitLabel raw
    let node : Node G := { id, shape, label, subtitle }
    ({ f with
        declared := f.declared ++ [(node, span)]
        undeclared := f.undeclared.filter (· != id) }, [])

/-- The number of edges so far from one id to another. -/
def edgeCount (f : Flowchart G) (source target : String) : Nat :=
  f.edges.countP (fun e => e.source == source && e.target == target)

def addEdge (f : Flowchart G) (l : Line) (e : EdgeLine) : Flowchart G × List Diagnostic :=
  let (f, saidOfSource) := f.declare l e.source
  let (f, saidOfTarget) := f.declare l e.target
  let source := e.source.value.id
  let target := e.target.value.id
  let label := (e.label.map fun cs => String.ofList (stripQuotes (trim cs))).filter
    (fun s => !s.isEmpty)
  let edge : Edge G :=
    { id := Edge.idOf source target (f.edgeCount source target)
      source, target, label, style := e.style, directed := e.directed }
  ({ f with edges := f.edges ++ [edge] }, saidOfSource ++ saidOfTarget)

/-- A header sets the direction. One without a known direction sets the default. -/
def setDirection (f : Flowchart G) (l : Line) (name : Option String) :
    Flowchart G × List Diagnostic :=
  let f := { f with headerSeen := true }
  match name.bind Direction.ofName? with
  | some direction => ({ f with direction }, [])
  | none =>
    ({ f with direction := .leftRight }, [(Fault.unknownDirection name).located l.span])

def step (f : Flowchart G) (l : Line) : Flowchart G × List Diagnostic :=
  let text := l.trimmed
  match header? text, nodeLine? text, edgeLine? text with
  | some direction, _, _ => f.setDirection l direction
  | none, some node, _ => f.declare l node
  | none, none, some edge => f.addEdge l edge
  | none, none, none => (f, [Fault.unrecognizedBodyLine.located l.span])

/-- What is said at the end of a body whose nodes have no header. -/
def missingHeader (f : Flowchart G) : List Diagnostic :=
  if !f.headerSeen && !f.declared.isEmpty then [Fault.missingHeader.anywhere] else []

/-- The declared nodes, then the endpoints that were never declared. -/
def nodes (f : Flowchart G) : List (Node G) :=
  f.declared.map Prod.fst ++ f.undeclared.map fun id => { id, label := id }

end Flowchart

/-- Reads the body of a document. -/
def flowchartOf {G : Type} (lines : List Line) : Flowchart G × List Diagnostic :=
  let (f, said) := scanMeaningful Flowchart.step {} lines
  (f, said ++ f.missingHeader)

end Storyboard.Document
