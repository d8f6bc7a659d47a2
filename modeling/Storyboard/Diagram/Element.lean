import Storyboard.Diagram.Style
import Storyboard.Geometry

/-!
# Nodes and edges

Nodes and edges are told apart by their ids. Parallel edges get ids of their own from their
ordinal among the edges of the same pair.
-/

namespace Storyboard

/-- The six outlines of a node, each written with brackets of its own. -/
inductive NodeShape where
  | terminator | rectangle | diamond | parallelogram | database | document
  deriving DecidableEq, Repr, Inhabited

def NodeShape.name : NodeShape → String
  | terminator => "terminator"
  | rectangle => "rectangle"
  | diamond => "diamond"
  | parallelogram => "parallelogram"
  | database => "database"
  | document => "document"

structure Node (G : Type) where
  id : String
  shape : NodeShape := .rectangle
  label : String
  subtitle : Option String := none
  style : NodeStyle G := {}
  /-- The box that a layout gave it. -/
  bounds : Option (Bounds G) := none
  deriving Repr, Inhabited

def Node.render {G : Type} (n : Node G) : String :=
  n.id ++ " (" ++ n.shape.name ++ ": " ++ n.label ++ ")"

/-- How the line of an edge is drawn. -/
inductive EdgeStyle where
  | solid | dashed | thick
  deriving DecidableEq, Repr, Inhabited

def EdgeStyle.name : EdgeStyle → String
  | solid => "solid"
  | dashed => "dashed"
  | thick => "thick"

structure Edge (G : Type) where
  id : String
  source : String
  target : String
  label : Option String := none
  style : EdgeStyle := .solid
  /-- Whether it ends in an arrowhead. -/
  directed : Bool := true
  /-- The line that a layout gave it. -/
  points : List (Point G) := []
  deriving Repr, Inhabited

namespace Edge

/-- The id of the edge of this ordinal between two ids. The first has no suffix. -/
def idOf (source target : String) (ordinal : Nat) : String :=
  let base := source ++ "_to_" ++ target
  if ordinal = 0 then base else base ++ "_" ++ toString ordinal

/-- Whether the edge goes from `a` to `b`, or joins them if it has no direction. -/
def connects {G : Type} (e : Edge G) (a b : String) : Bool :=
  (e.source == a && e.target == b) || (!e.directed && e.source == b && e.target == a)

end Edge

end Storyboard
