import Mathlib.Algebra.Order.Group.MinMax
import Storyboard.Proofs.Layout.Covering

/-!
# Reversed directions

A layout against the axis is the layout along the axis, seen in a mirror that stands in the middle of
its bounds (`layout_mirrored`). Before the shift to the origin the mirror stands at the origin: only
the centers change sides, and a box about the mirrored center is the mirrored box.
-/

namespace Storyboard

variable {G : Type}

def Direction.reversed : Direction → Direction
  | leftRight => rightLeft
  | rightLeft => leftRight
  | topDown => bottomTop
  | bottomTop => topDown

theorem Layered.along_reversed (direction : Direction) (s : Size G) :
    along direction.reversed s = along direction s := by
  cases direction <;> rfl

theorem Layered.across_reversed (direction : Direction) (s : Size G) :
    across direction.reversed s = across direction s := by
  cases direction <;> rfl

section

variable [Scalar G]

/-- The point on the other side along the flow, from one end to the other of a length. -/
def Point.mirrored (direction : Direction) (length : G) (p : Point G) : Point G :=
  if direction.isHorizontal then ⟨length - p.x, p.y⟩ else ⟨p.x, length - p.y⟩

def Bounds.mirrored (direction : Direction) (length : G) (b : Bounds G) : Bounds G :=
  if direction.isHorizontal then ⟨length - b.maxX, b.minY, length - b.minX, b.maxY⟩
  else ⟨b.minX, length - b.maxY, b.maxX, length - b.minY⟩

/-- The extent of a layout along the flow. -/
def Layout.length (direction : Direction) (l : Layout G) : G :=
  match l.bounds? with
  | some b => Layered.along direction b.size
  | none => 0

/-- The layout with both ends of the flow exchanged. -/
def Layout.mirrored (direction : Direction) (l : Layout G) : Layout G where
  nodes := l.nodes.mapValues (Bounds.mirrored direction (l.length direction))
  edges := l.edges.mapValues (List.map (Point.mirrored direction (l.length direction)))

end

variable [ExactScalar G] {direction : Direction}

/-! ### Boxes in the mirror -/

namespace Bounds

theorem merge_mirrored (length : G) (a b : Bounds G) :
    (a.mirrored direction length).merge (b.mirrored direction length) =
      (a.merge b).mirrored direction length := by
  unfold mirrored
  split <;> simp [merge, min_sub_sub_left, max_sub_sub_left]

theorem center_mirrored (length : G) (b : Bounds G) :
    (b.mirrored direction length).center = b.center.mirrored direction length := by
  unfold mirrored Point.mirrored
  split <;> simp only [center] <;> congr 1 <;> ring

theorem ofCenter_mirrored (length : G) (center : Point G) (size : Size G) :
    ofCenter (center.mirrored direction length) size =
      (ofCenter center size).mirrored direction length := by
  unfold mirrored Point.mirrored
  split <;> simp only [ofCenter] <;> congr 1 <;> ring

/-- A mirror at the origin and the shift to it are the shift and a mirror at the middle. -/
theorem translate_mirrored (b whole : Bounds G) :
    (b.mirrored direction 0).translate
        ⟨-(whole.mirrored direction 0).minX, -(whole.mirrored direction 0).minY⟩ =
      (b.translate ⟨-whole.minX, -whole.minY⟩).mirrored direction
        (Layered.along direction whole.size) := by
  unfold mirrored Layered.along
  split <;> simp only [translate, size, width, height] <;> congr 1 <;> ring

theorem mirrored_whole {whole : Bounds G} (left : whole.minX = 0) (top : whole.minY = 0) :
    whole.mirrored direction (Layered.along direction whole.size) = whole := by
  obtain ⟨minX, minY, maxX, maxY⟩ := whole
  obtain rfl : minX = 0 := left
  obtain rfl : minY = 0 := top
  unfold mirrored Layered.along
  split <;> simp [size, width, height]

end Bounds

namespace Layered

/-! ### Centers -/

theorem pointAt_reversed (direction : Direction) (main cross : G) :
    pointAt direction.reversed main cross = (pointAt direction main cross).mirrored direction 0 := by
  cases direction <;>
    simp [pointAt, Direction.reversed, Point.mirrored, Direction.isHorizontal, Direction.isReversed]

theorem placeInRank_reversed (direction : Direction) (gap main offset : G)
    (rank : List (Nat × Size G)) :
    placeInRank direction.reversed gap main offset rank =
      (placeInRank direction gap main offset rank).map fun e => (e.1, e.2.mirrored direction 0) := by
  induction rank generalizing offset with
  | nil => rfl
  | cons entry rest ih =>
    obtain ⟨i, size⟩ := entry
    rw [placeInRank, placeInRank, List.map_cons, across_reversed, pointAt_reversed, ih]

theorem placeRanks_reversed (direction : Direction) (spacing : Spacing G) (start : G)
    (ranks : List (List (Nat × Size G))) :
    placeRanks direction.reversed spacing start ranks =
      (placeRanks direction spacing start ranks).map fun e => (e.1, e.2.mirrored direction 0) := by
  induction ranks generalizing start with
  | nil => rfl
  | cons rank rest ih =>
    simp only [placeRanks, List.map_append, along_reversed, across_reversed, placeInRank_reversed, ih]

/-! ### Boxes and lines -/

theorem unshifted_reversed (spacing : Spacing G) (direction : Direction) (nodes : List (Node G))
    (edges : List (Nat × Nat)) :
    unshifted spacing direction.reversed nodes edges =
      (unshifted spacing direction nodes edges).mapValues (Bounds.mirrored direction 0) := by
  unfold unshifted
  dsimp only
  rw [OrderedMap.mapValues_ofList, List.map_filterMap, placeRanks_reversed]
  generalize placeRanks direction spacing _ _ = centers
  have placed (i : Nat) : (centers.map fun e => (e.1, e.2.mirrored direction 0)).lookup i =
      (centers.lookup i).map (Point.mirrored direction 0) :=
    OrderedMap.get?_mapValues (Point.mirrored direction 0) ⟨centers⟩ i
  refine congrArg OrderedMap.ofList (List.filterMap_congr fun n _ => ?_)
  cases indexOf? nodes n.id with
  | none => rfl
  | some i =>
    simp only [Option.bind_eq_bind, Option.bind_some]
    cases nodes[i]? with
    | none => rfl
    | some m =>
      simp only [Option.map_some, Option.bind_some]
      rw [placed]
      cases centers.lookup i with
      | none => rfl
      | some center =>
        exact congrArg (fun b => some (n.id, b)) (Bounds.ofCenter_mirrored 0 center (nodeSize m))

/-- The shift moves the mirror from the origin to the middle of the boxes. -/
theorem shifted_mirrored (boxes : OrderedMap String (Bounds G)) :
    shifted (boxes.mapValues (Bounds.mirrored direction 0)) =
      (shifted boxes).mapValues
        (Bounds.mirrored direction (Layout.length direction ⟨shifted boxes, {}⟩)) := by
  cases merged : Bounds.mergeAll? boxes.values with
  | none =>
    obtain ⟨entries⟩ := boxes
    cases entries with
    | nil => rfl
    | cons => cases merged
  | some whole =>
    have mirrored : Bounds.mergeAll? (boxes.mapValues (Bounds.mirrored direction 0)).values =
        some (whole.mirrored direction 0) := by
      rw [OrderedMap.values_mapValues, Bounds.mergeAll?_map (Bounds.merge_mirrored 0), merged]
      rfl
    have length : Layout.length direction ⟨shifted boxes, {}⟩ = along direction whole.size := by
      rw [Layout.length, Layout.bounds?, shifted_of_merged merged, OrderedMap.values_mapValues,
        Bounds.mergeAll?_translate, merged]
      exact congrArg (along direction) (Bounds.size_translate whole _)
    rw [shifted_of_merged mirrored, length, shifted_of_merged merged]
    simp only [OrderedMap.mapValues, List.map_map, Function.comp_def, Bounds.translate_mirrored]

theorem edgeLines_mirrored (direction : Direction) (length : G) (boxes : OrderedMap String (Bounds G))
    (edges : List (Edge G)) :
    edgeLines (boxes.mapValues (Bounds.mirrored direction length)) edges =
      (edgeLines boxes edges).mapValues (List.map (Point.mirrored direction length)) := by
  unfold edgeLines
  rw [OrderedMap.mapValues_ofList, List.map_filterMap]
  refine congrArg OrderedMap.ofList (List.filterMap_congr fun e _ => ?_)
  rw [OrderedMap.get?_mapValues, OrderedMap.get?_mapValues]
  cases boxes.get? e.source with
  | none => rfl
  | some a =>
    cases boxes.get? e.target with
    | none => rfl
    | some b =>
      simp [Bounds.center_mirrored]

/-! ### The layout -/

theorem layout_reversed (spacing : Spacing G) (direction : Direction) (nodes : List (Node G))
    (edges : List (Edge G)) :
    layout spacing direction.reversed nodes edges =
      (layout spacing direction nodes edges).map (Layout.mirrored direction) := by
  unfold layout
  cases edgeIndices nodes edges with
  | error e => rfl
  | ok indices =>
    have boxes : shifted (unshifted spacing direction.reversed nodes indices) =
        (shifted (unshifted spacing direction nodes indices)).mapValues (Bounds.mirrored direction
          (Layout.length direction ⟨shifted (unshifted spacing direction nodes indices), {}⟩)) := by
      rw [unshifted_reversed, shifted_mirrored]
    have lines := edgeLines_mirrored direction
      (Layout.length direction ⟨shifted (unshifted spacing direction nodes indices), {}⟩)
      (shifted (unshifted spacing direction nodes indices)) edges
    show Except.ok (Layout.mk _ _) = Except.ok (Layout.mk _ _)
    rw [boxes, lines]
    rfl

/-- The bounds of a layout start at the origin. -/
theorem bounds?_origin {spacing : Spacing G} {nodes : List (Node G)} {edges : List (Edge G)}
    {l : Layout G} (laidOut : layout spacing direction nodes edges = .ok l) {whole : Bounds G}
    (found : l.bounds? = some whole) : whole.minX = 0 ∧ whole.minY = 0 := by
  obtain ⟨indices, boxes, _⟩ := layout_ok laidOut
  rw [Layout.bounds?, boxes] at found
  have some_box : (unshifted spacing direction nodes indices).values ≠ [] := by
    intro empty
    rw [shifted, OrderedMap.values, List.map_map, List.map_eq_nil_iff.mp empty] at found
    cases found
  obtain ⟨_, _, b, merged, left, top⟩ := shifted_translates _ some_box
  obtain rfl := Option.some.inj (merged.symm.trans found)
  exact ⟨left, top⟩

/-- The layout from right to left is the layout from left to right with each `x` turned into what is
left of the width, and the layout from the bottom up is the layout from the top down with each `y`
turned into what is left of the height. As the bounds start at the origin, these are reflections in
their middle, and the bounds stay what they are. -/
theorem layout_mirrored (spacing : Spacing G) (nodes : List (Node G)) (edges : List (Edge G)) :
    layout spacing .rightLeft nodes edges =
      (layout spacing .leftRight nodes edges).map (Layout.mirrored .leftRight) ∧
    layout spacing .bottomTop nodes edges =
      (layout spacing .topDown nodes edges).map (Layout.mirrored .topDown) ∧
    ∀ direction l whole, layout spacing direction nodes edges = .ok l → l.bounds? = some whole →
      whole.minX = 0 ∧ whole.minY = 0 ∧ (l.mirrored direction).bounds? = some whole := by
  refine ⟨layout_reversed spacing .leftRight nodes edges, layout_reversed spacing .topDown nodes edges,
    fun direction l whole laidOut found => ?_⟩
  obtain ⟨left, top⟩ := bounds?_origin laidOut found
  have length : l.length direction = along direction whole.size := by rw [Layout.length, found]
  refine ⟨left, top, ?_⟩
  rw [Layout.bounds?, Layout.mirrored, OrderedMap.values_mapValues,
    Bounds.mergeAll?_map (Bounds.merge_mirrored _), length]
  exact congrArg (Option.map _) found |>.trans (congrArg some (Bounds.mirrored_whole left top))

end Layered

end Storyboard
