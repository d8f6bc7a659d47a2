import Storyboard.Diagram.Basic

/-!
# Layouts

A layout places nodes and edges by their ids. What it does not place has no bounds.
-/

namespace Storyboard

structure Layout (G : Type) where
  /-- The boxes of the nodes. -/
  nodes : OrderedMap String (Bounds G) := {}
  /-- The lines of the edges. -/
  edges : OrderedMap String (List (Point G)) := {}
  deriving Repr, Inhabited

namespace Layout

variable {G : Type} [Scalar G]

/-- The smallest box around all nodes. -/
def bounds? (l : Layout G) : Option (Bounds G) :=
  Bounds.mergeAll? l.nodes.values

/-- The smallest box around the points of a line. -/
def pointsBounds? (points : List (Point G)) : Option (Bounds G) :=
  Bounds.mergeAll? (points.map fun p => Bounds.ofTopLeft p ⟨0, 0⟩)

/-- The box of a node, or around the line of an edge. -/
def entityBounds? (l : Layout G) (id : String) : Option (Bounds G) :=
  match l.nodes.get? id with
  | some b => some b
  | none => (l.edges.get? id).bind pointsBounds?

/-- The smallest box around those of the entities that are placed. -/
def boundsOf? (l : Layout G) (ids : List String) : Option (Bounds G) :=
  Bounds.mergeAll? (ids.filterMap l.entityBounds?)

end Layout

namespace Diagram

variable {T G : Type}

/-- The diagram with the geometry of a layout. What the layout does not place keeps its own. -/
def placed (d : Diagram T G) (l : Layout G) : Diagram T G :=
  { d with
    nodes := d.nodes.map fun n =>
      match l.nodes.get? n.id with
      | some b => { n with bounds := some b }
      | none => n
    edges := d.edges.map fun e =>
      match l.edges.get? e.id with
      | some points => { e with points }
      | none => e }

end Diagram

end Storyboard
