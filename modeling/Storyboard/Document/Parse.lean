import Storyboard.Diagram.Basic
import Storyboard.Document.Animation
import Storyboard.Document.ConfigBlock
import Storyboard.Document.Flowchart
import Storyboard.Document.NarrationBlock
import Storyboard.Document.Section
import Storyboard.Document.StyleBlock

/-!
# Parsing documents

`parse` reads a document into a diagram. It is permissive: what it does not understand is left
out with a warning, and only a document without content or without nodes gives no diagram.
-/

namespace Storyboard.Document

open Text

/-- The words that stand for many entities at once. -/
def targetWords : List String := ["all", "nodes", "edges"]

/-- A diagram, and what was found wrong on the way to it. -/
structure Parsed (T G : Type) where
  diagram : Diagram T G
  warnings : List Diagnostic
  deriving Repr, Inhabited

variable {T G : Type}

/-- Lays a style over the style of the first node with the id. -/
def styleNode (id : String) (style : NodeStyle G) : List (Node G) → List (Node G)
  | [] => []
  | n :: rest =>
    if n.id == id then { n with style := n.style.merge style } :: rest
    else n :: styleNode id style rest

/-- Hands the styles to the nodes that they name. -/
def styleNodes : List (Node G) → List (String × NodeStyle G × Span) →
    List (Node G) × List Diagnostic
  | nodes, [] => (nodes, [])
  | nodes, (id, style, span) :: rest =>
    if nodes.any (fun n => n.id == id) then styleNodes (styleNode id style nodes) rest
    else
      let (nodes, later) := styleNodes nodes rest
      (nodes, (Fault.unknownStyledNode id).located span :: later)

/-- Whether a target names something in the diagram. -/
def isKnownTarget (d : Diagram T G) : Target → Bool
  | .entity id => d.contains id || targetWords.contains id
  | .pair source target => d.edges.any (fun e => e.connects source target)

/-- What is said of the targets of a step that name nothing. -/
def checkTargets (d : Diagram T G) (s : PlacedStep T) : List Diagnostic :=
  (s.step.targets.filter (fun t => !isKnownTarget d t)).map fun t =>
    (Fault.unknownTarget s.step.number t).located s.span

variable [Scalar T] [Scalar G] [Narrow T G]

/-- Everything that a document describes, with everything found wrong. -/
def read (source : List Char) : Diagram T G × List Diagnostic :=
  let (sections, saidOfSections) := sectionsOf (linesOf source)
  let (flowchart, saidOfBody) := flowchartOf (G := G) sections.body
  let saidOfNodes := if flowchart.nodes.isEmpty then [Fault.noNodes.anywhere] else []
  let (steps, saidOfSteps) := stepsOf (T := T) G (sections.lines .animation)
  let (styles, saidOfStyles) := stylesOf T (sections.lines .style)
  let (captions, saidOfCaptions) := captionsOf (sections.lines .narration)
  let (options, saidOfOptions) := optionsOf (sections.lines .config)
  let (nodes, saidOfStyled) := styleNodes flowchart.nodes styles.entries
  let diagram : Diagram T G :=
    { direction := flowchart.direction, nodes, edges := flowchart.edges
      steps := steps.map PlacedStep.step, captions, options }
  (diagram, saidOfSections ++ saidOfBody ++ saidOfNodes ++ saidOfSteps ++ saidOfStyles ++
    saidOfCaptions ++ saidOfOptions ++ saidOfStyled ++ steps.flatMap (checkTargets diagram))

/-- Parses a document. -/
def parse (source : String) : Except ParseFailure (Parsed T G) :=
  let source := source.toList
  if source.all isBlank then .error ⟨[Fault.emptyDocument.anywhere]⟩
  else
    let (diagram, said) := read source
    if said.any Diagnostic.isError then .error ⟨said⟩ else .ok ⟨diagram, said⟩

end Storyboard.Document
