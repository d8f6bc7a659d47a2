import Storyboard.Layout.Basic
import Storyboard.Layout.Ranks

/-!
# The layered layout

Ranks follow one another along the direction of the flow; the nodes of a rank stand side by side
across it, centered on a common axis. The whole is shifted so that it starts at the origin.
-/

namespace Storyboard

/-- The gaps that a layered layout keeps. -/
structure Spacing (G : Type) where
  /-- Between the nodes of a rank. -/
  node : G
  /-- Between consecutive ranks. -/
  rank : G
  deriving Repr, Inhabited

/-- Why a diagram cannot be laid out. -/
inductive LayoutError where
  | unknownNode (edge : String)
  deriving DecidableEq, Repr

def LayoutError.message : LayoutError → String
  | unknownNode edge => "edge `" ++ edge ++ "` references an unknown node"

namespace Layered

variable {G : Type} [Scalar G]

/-- The lines of a text. A line break at the very end opens no further line. -/
def linesOfText (s : String) : List (List Char) :=
  let pieces := Text.splitWhere (· = '\n') s.toList
  let complete := pieces.dropLast.map fun p => (Text.dropTrailing? ['\r'] p).getD p
  match pieces.getLast? with
  | some [] | none => complete
  | some last => complete ++ [last]

/-- The size of a node by its text: 8 units for a character and 24 for a line, with a margin,
and never below 120 by 60. -/
def nodeSize (n : Node G) : Size G :=
  let lines := n.label.toList :: (n.subtitle.map linesOfText).getD []
  let width := (lines.map List.length).foldl max 0
  ⟨Scalar.greatest (Scalar.ofNat width * 8 + 40) 120,
    Scalar.greatest (Scalar.ofNat lines.length * 24 + 30) 60⟩

/-- The position of the last node with an id. -/
def indexOf? (nodes : List (Node G)) (id : String) : Option Nat :=
  ((List.range nodes.length).filter fun i => (nodes[i]?).any (fun n => n.id == id)).getLast?

/-- The edges as pairs of positions of nodes. -/
def edgeIndices (nodes : List (Node G)) (edges : List (Edge G)) :
    Except LayoutError (List (Nat × Nat)) :=
  edges.mapM fun e =>
    match indexOf? nodes e.source, indexOf? nodes e.target with
    | some a, some b => .ok (a, b)
    | _, _ => .error (.unknownNode e.id)

/-- The extent of a size along the flow. -/
def along (direction : Direction) (s : Size G) : G :=
  if direction.isHorizontal then s.width else s.height

/-- The extent of a size across the flow. -/
def across (direction : Direction) (s : Size G) : G :=
  if direction.isHorizontal then s.height else s.width

/-- The point with these coordinates along and across the flow. -/
def pointAt (direction : Direction) (main cross : G) : Point G :=
  let main := if direction.isReversed then -main else main
  if direction.isHorizontal then ⟨main, cross⟩ else ⟨cross, main⟩

/-- The centers of the nodes of one rank, from the offset of the next node on. -/
def placeInRank (direction : Direction) (gap main : G) :
    G → List (Nat × Size G) → List (Nat × Point G)
  | _, [] => []
  | offset, (i, size) :: rest =>
    let extent := across direction size
    (i, pointAt direction main (offset + extent / 2)) ::
      placeInRank direction gap main (offset + (extent + gap)) rest

/-- The centers of the nodes, from the coordinate at which the next rank starts on. -/
def placeRanks (direction : Direction) (spacing : Spacing G) :
    G → List (List (Nat × Size G)) → List (Nat × Point G)
  | _, [] => []
  | start, rank :: rest =>
    let depth := (rank.map fun e => along direction e.2).foldl Scalar.greatest 0
    let breadth := (rank.map fun e => across direction e.2).foldl (· + ·) 0 +
      spacing.node * Scalar.ofNat (rank.length - 1)
    placeInRank direction spacing.node (start + depth / 2) (-breadth / 2) rank ++
      placeRanks direction spacing (start + (depth + spacing.rank)) rest

/-- The boxes of the nodes before they are shifted to the origin. -/
def unshifted (spacing : Spacing G) (direction : Direction) (nodes : List (Node G))
    (edges : List (Nat × Nat)) : OrderedMap String (Bounds G) :=
  let sized (i : Nat) : Option (Nat × Size G) := (nodes[i]?).map fun n => (i, nodeSize n)
  let ranks := (Graph.ranks ⟨nodes.length, edges⟩).map fun rank => rank.filterMap sized
  let centers := placeRanks direction spacing 0 ranks
  OrderedMap.ofList (nodes.filterMap fun n => do
    let (i, size) ← sized (← indexOf? nodes n.id)
    let center ← centers.lookup i
    return (n.id, Bounds.ofCenter center size))

/-- Moves the boxes so that the box around them starts at the origin. -/
def shifted (boxes : OrderedMap String (Bounds G)) : OrderedMap String (Bounds G) :=
  let offset := match Bounds.mergeAll? boxes.values with
    | some b => ⟨-b.minX, -b.minY⟩
    | none => Point.zero
  ⟨boxes.entries.map fun (id, b) => (id, b.translate offset)⟩

/-- The lines of the edges: each joins the centers of its ends. -/
def edgeLines (boxes : OrderedMap String (Bounds G)) (edges : List (Edge G)) :
    OrderedMap String (List (Point G)) :=
  OrderedMap.ofList (edges.filterMap fun e => do
    let source ← boxes.get? e.source
    let target ← boxes.get? e.target
    return (e.id, [source.center, target.center]))

/-- Lays out nodes and edges. -/
def layout (spacing : Spacing G) (direction : Direction) (nodes : List (Node G))
    (edges : List (Edge G)) : Except LayoutError (Layout G) := do
  let indices ← edgeIndices nodes edges
  let boxes := shifted (unshifted spacing direction nodes indices)
  return ⟨boxes, edgeLines boxes edges⟩

end Layered

end Storyboard
