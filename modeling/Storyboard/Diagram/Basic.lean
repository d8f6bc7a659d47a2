import Storyboard.Diagram.Caption
import Storyboard.Diagram.Direction
import Storyboard.Diagram.Element
import Storyboard.Diagram.Options
import Storyboard.Diagram.Step

/-!
# Diagrams

A diagram is what a document describes: nodes, edges, animation steps, captions and options.
-/

namespace Storyboard

structure Diagram (T G : Type) where
  direction : Direction := .leftRight
  nodes : List (Node G) := []
  edges : List (Edge G) := []
  steps : List (Step T) := []
  captions : List Caption := []
  options : DocumentOptions T := {}
  deriving Repr, Inhabited

namespace Diagram

variable {T G : Type}

def node? (d : Diagram T G) (id : String) : Option (Node G) :=
  d.nodes.find? (fun n => n.id == id)

def edge? (d : Diagram T G) (id : String) : Option (Edge G) :=
  d.edges.find? (fun e => e.id == id)

/-- Whether the id names a node or an edge. -/
def contains (d : Diagram T G) (id : String) : Bool :=
  (d.node? id).isSome || (d.edge? id).isSome

/-- The first caption of a step number. -/
def caption? (d : Diagram T G) (step : Nat) : Option Caption :=
  d.captions.find? (fun c => c.step == step)

end Diagram

end Storyboard
