import Storyboard.Proofs.Layout.Separation

/-!
# Boxes around boxes and points

Merging boxes gives the smallest box around them. So the box around a layout covers the boxes of all
nodes and holds the lines of all edges, which lead from the center of a box to the center of a box.
-/

namespace Storyboard

variable {G : Type}

/-! ### Boxes -/

namespace Bounds

section

variable [Scalar G]

/-- Whether a point lies in a box or on its border. -/
def Holds (b : Bounds G) (p : Point G) : Prop :=
  b.minX ≤ p.x ∧ b.minY ≤ p.y ∧ p.x ≤ b.maxX ∧ p.y ≤ b.maxY

/-- Whether a box reaches at least as far as another on every side. -/
def Covers (a b : Bounds G) : Prop :=
  a.minX ≤ b.minX ∧ a.minY ≤ b.minY ∧ b.maxX ≤ a.maxX ∧ b.maxY ≤ a.maxY

/-- Whether no side of a box is beyond the opposite one. -/
def Proper (b : Bounds G) : Prop := b.minX ≤ b.maxX ∧ b.minY ≤ b.maxY

/-- Whether a box is the smallest one that holds all points of a list. -/
def Surrounds (b : Bounds G) (points : List (Point G)) : Prop :=
  (∀ p ∈ points, b.Holds p) ∧ ∀ c : Bounds G, (∀ p ∈ points, c.Holds p) → c.Covers b

theorem exists_mergeAll? {boxes : List (Bounds G)} (present : boxes ≠ []) :
    ∃ b, mergeAll? boxes = some b := by
  cases boxes with
  | nil => exact absurd rfl present
  | cons b rest => exact ⟨_, rfl⟩

end

variable [ExactScalar G] {a b c : Bounds G} {p : Point G}

theorem Covers.refl (b : Bounds G) : b.Covers b :=
  ⟨le_refl _, le_refl _, le_refl _, le_refl _⟩

theorem Covers.trans (ab : a.Covers b) (bc : b.Covers c) : a.Covers c :=
  ⟨ab.1.trans bc.1, ab.2.1.trans bc.2.1, bc.2.2.1.trans ab.2.2.1, bc.2.2.2.trans ab.2.2.2⟩

theorem Covers.holds (ab : a.Covers b) (inside : b.Holds p) : a.Holds p :=
  ⟨ab.1.trans inside.1, ab.2.1.trans inside.2.1, inside.2.2.1.trans ab.2.2.1,
    inside.2.2.2.trans ab.2.2.2⟩

theorem Covers.antisymm (ab : a.Covers b) (ba : b.Covers a) : a = b := by
  obtain ⟨left, top, right, bottom⟩ := ab
  obtain ⟨left', top', right', bottom'⟩ := ba
  cases a
  cases b
  congr
  · exact le_antisymm left left'
  · exact le_antisymm top top'
  · exact le_antisymm right' right
  · exact le_antisymm bottom' bottom

theorem Surrounds.unique {points : List (Point G)} (first : a.Surrounds points)
    (second : b.Surrounds points) : a = b :=
  (first.2 b second.1 |>.antisymm (second.2 a first.1)).symm

/-- Merging gives the least box that covers both. -/
theorem covers_merge_iff : c.Covers (a.merge b) ↔ c.Covers a ∧ c.Covers b := by
  simp only [Covers, merge, ExactScalar.least_eq, ExactScalar.greatest_eq, le_min_iff, max_le_iff]
  tauto

theorem covers_foldl_merge_iff {boxes : List (Bounds G)} :
    c.Covers (boxes.foldl merge b) ↔ c.Covers b ∧ ∀ a ∈ boxes, c.Covers a := by
  induction boxes generalizing b with
  | nil => simp
  | cons a rest ih => rw [List.foldl_cons, ih, covers_merge_iff, List.forall_mem_cons, and_assoc]

theorem covers_mergeAll?_iff {boxes : List (Bounds G)} (merged : mergeAll? boxes = some b) :
    c.Covers b ↔ ∀ a ∈ boxes, c.Covers a := by
  cases boxes with
  | nil => cases merged
  | cons first rest =>
    obtain rfl := Option.some.inj merged
    rw [covers_foldl_merge_iff, List.forall_mem_cons]

theorem mergeAll?_covers {boxes : List (Bounds G)} (merged : mergeAll? boxes = some b)
    (member : a ∈ boxes) : b.Covers a :=
  (covers_mergeAll?_iff merged).mp (Covers.refl b) a member

theorem pad_covers {padding : G} (room : 0 ≤ padding) :
    (b.pad (Insets.uniform padding)).Covers b := by
  refine ⟨?_, ?_, ?_, ?_⟩ <;> simp [pad, Insets.uniform, room]

/-! ### Centers and sizes -/

theorem holds_center (proper : b.Proper) : b.Holds b.center := by
  obtain ⟨wide, high⟩ := proper
  simp only [Holds, center]
  refine ⟨?_, ?_, ?_, ?_⟩ <;> linarith

theorem proper_ofCenter (center : Point G) {size : Size G} (wide : 0 ≤ size.width)
    (high : 0 ≤ size.height) : (ofCenter center size).Proper := by
  simp only [Proper, ofCenter]
  constructor <;> linarith

theorem proper_translate (proper : b.Proper) (offset : Point G) : (b.translate offset).Proper :=
  ⟨by simpa [translate] using proper.1, by simpa [translate] using proper.2⟩

theorem center_translate (offset : Point G) :
    (b.translate offset).center = b.center.add offset := by
  simp only [translate, center, Point.add]
  congr 1 <;> ring

theorem center_ofCenter (center : Point G) (size : Size G) :
    (ofCenter center size).center = center := by
  simp only [ofCenter, Bounds.center]
  congr 1 <;> ring

theorem zoom_eq {factor : G} (positive : 0 < factor) :
    b.zoom factor = ofCenter b.center ⟨b.width / factor, b.height / factor⟩ := by
  unfold zoom
  rw [ExactScalar.zero_eq, if_neg positive.not_ge]

theorem width_pad (padding : G) :
    (b.pad (Insets.uniform padding)).width = b.width + 2 * padding := by
  simp only [pad, Insets.uniform, width]
  ring

theorem height_pad (padding : G) :
    (b.pad (Insets.uniform padding)).height = b.height + 2 * padding := by
  simp only [pad, Insets.uniform, height]
  ring

theorem lerp_one (a b : Bounds G) : a.lerp b 1 = b := by
  simp [lerp]

end Bounds

/-! ### Layouts -/

namespace Layout

section

variable [Scalar G] {l : Layout G}

omit [Scalar G] in
theorem mem_values {id : String} {b : Bounds G} (placed : l.nodes.get? id = some b) :
    b ∈ l.nodes.values :=
  List.mem_map_of_mem (OrderedMap.mem_of_get? placed)

theorem exists_bounds? {id : String} {b : Bounds G} (placed : l.nodes.get? id = some b) :
    ∃ scene, l.bounds? = some scene :=
  Bounds.exists_mergeAll? (List.ne_nil_of_mem (mem_values placed))

theorem entityBounds?_node {id : String} {b : Bounds G} (placed : l.nodes.get? id = some b) :
    l.entityBounds? id = some b := by
  rw [entityBounds?, placed]

theorem entityBounds?_edge {id : String} {points : List (Point G)}
    (other : l.nodes.get? id = none) (drawn : l.edges.get? id = some points) :
    l.entityBounds? id = pointsBounds? points := by
  rw [entityBounds?, other, drawn]
  rfl

theorem exists_boundsOf? {ids : List String} {id : String} {b : Bounds G} (named : id ∈ ids)
    (placed : l.entityBounds? id = some b) : ∃ box, l.boundsOf? ids = some box :=
  Bounds.exists_mergeAll? (List.ne_nil_of_mem (List.mem_filterMap.mpr ⟨id, named, placed⟩))

end

variable [ExactScalar G] {l : Layout G} {scene box b : Bounds G} {id : String}

theorem bounds?_covers (found : l.bounds? = some scene) (placed : l.nodes.get? id = some b) :
    scene.Covers b :=
  Bounds.mergeAll?_covers found (mem_values placed)

theorem boundsOf?_covers {ids : List String} (found : l.boundsOf? ids = some box)
    (named : id ∈ ids) (placed : l.entityBounds? id = some b) : box.Covers b :=
  Bounds.mergeAll?_covers found (List.mem_filterMap.mpr ⟨id, named, placed⟩)

theorem surrounds_of_pointsBounds? {points : List (Point G)}
    (found : pointsBounds? points = some b) : b.Surrounds points := by
  have covers : ∀ c : Bounds G, c.Covers b ↔ ∀ p ∈ points, c.Holds p := by
    intro c
    rw [Bounds.covers_mergeAll?_iff found, List.forall_mem_map]
    simp [Bounds.ofTopLeft, Bounds.Covers, Bounds.Holds]
  exact ⟨(covers b).mp (Bounds.Covers.refl b), fun c => (covers c).mpr⟩

theorem exists_pointsBounds? {points : List (Point G)} (present : points ≠ []) :
    ∃ b, pointsBounds? points = some b ∧ b.Surrounds points := by
  obtain ⟨b, found⟩ : ∃ b, pointsBounds? points = some b :=
    Bounds.exists_mergeAll? (by simpa using present)
  exact ⟨b, found, surrounds_of_pointsBounds? found⟩

end Layout

namespace Layered

section

variable [Scalar G] {spacing : Spacing G} {direction : Direction} {nodes : List (Node G)}
  {edges : List (Edge G)} {l : Layout G}

theorem layout_ok (laidOut : layout spacing direction nodes edges = .ok l) : ∃ indices,
    l.nodes = shifted (unshifted spacing direction nodes indices) ∧
      l.edges = edgeLines l.nodes edges := by
  rw [layout] at laidOut
  cases read : edgeIndices nodes edges with
  | error e =>
    rw [read] at laidOut
    cases laidOut
  | ok indices =>
    rw [read] at laidOut
    obtain rfl := Except.ok.inj laidOut
    exact ⟨indices, rfl, rfl⟩

theorem unshifted_box {indices : List (Nat × Nat)} {id : String} {b : Bounds G}
    (placed : (unshifted spacing direction nodes indices).get? id = some b) :
    id ∈ nodes.map Node.id ∧ ∃ center n, b = .ofCenter center (nodeSize n) := by
  obtain ⟨n, member, entry⟩ := List.mem_filterMap.mp (OrderedMap.mem_of_get?_ofList placed)
  simp only [Option.bind_eq_bind, Option.bind_eq_some_iff] at entry
  obtain ⟨i, _, ⟨j, size⟩, sized, center, _, same⟩ := entry
  obtain ⟨m, _, measured⟩ := Option.map_eq_some_iff.mp sized
  obtain ⟨rfl, rfl⟩ := Prod.mk.inj (Option.some.inj same)
  exact ⟨List.mem_map_of_mem member, center, m, by rw [(Prod.mk.inj measured).2]⟩

theorem shifted_get? (boxes : OrderedMap String (Bounds G)) : ∃ offset, ∀ id,
    (shifted boxes).get? id = (boxes.get? id).map fun b => b.translate offset := by
  obtain ⟨offset, moved⟩ : ∃ offset, shifted boxes = boxes.mapValues fun b => b.translate offset :=
    ⟨_, rfl⟩
  refine ⟨offset, fun id => ?_⟩
  rw [moved, OrderedMap.get?_mapValues]

theorem mem_nodes_of_placed (laidOut : layout spacing direction nodes edges = .ok l)
    {id : String} {b : Bounds G} (placed : l.nodes.get? id = some b) : id ∈ nodes.map Node.id := by
  obtain ⟨indices, boxes, _⟩ := layout_ok laidOut
  obtain ⟨offset, translated⟩ := shifted_get? (unshifted spacing direction nodes indices)
  rw [boxes, translated] at placed
  obtain ⟨box, unmoved, _⟩ := Option.map_eq_some_iff.mp placed
  exact (unshifted_box unmoved).1

/-- The line of an edge joins the centers of two boxes. -/
theorem line_of_drawn (laidOut : layout spacing direction nodes edges = .ok l) {id : String}
    {points : List (Point G)} (drawn : l.edges.get? id = some points) :
    ∃ source target a b, l.nodes.get? source = some a ∧ l.nodes.get? target = some b ∧
      points = [a.center, b.center] := by
  obtain ⟨_, _, lines⟩ := layout_ok laidOut
  rw [lines] at drawn
  obtain ⟨e, _, entry⟩ := List.mem_filterMap.mp (OrderedMap.mem_of_get?_ofList drawn)
  simp only [Option.bind_eq_bind, Option.bind_eq_some_iff] at entry
  obtain ⟨a, source, b, target, same⟩ := entry
  exact ⟨e.source, e.target, a, b, source, target, (Prod.mk.inj (Option.some.inj same)).2.symm⟩

end

variable [ExactScalar G] {spacing : Spacing G} {direction : Direction} {nodes : List (Node G)}
  {edges : List (Edge G)} {l : Layout G}

theorem proper_of_placed (laidOut : layout spacing direction nodes edges = .ok l) {id : String}
    {b : Bounds G} (placed : l.nodes.get? id = some b) : b.Proper := by
  obtain ⟨indices, boxes, _⟩ := layout_ok laidOut
  obtain ⟨offset, translated⟩ := shifted_get? (unshifted spacing direction nodes indices)
  rw [boxes, translated] at placed
  obtain ⟨box, unmoved, rfl⟩ := Option.map_eq_some_iff.mp placed
  obtain ⟨_, center, n, rfl⟩ := unshifted_box unmoved
  have size := nodeSize_pos n
  exact Bounds.proper_translate (Bounds.proper_ofCenter center size.1.le size.2.le) offset

/-- The box around a layout holds the lines of its edges. -/
theorem bounds?_holds_lines (laidOut : layout spacing direction nodes edges = .ok l)
    {scene : Bounds G} (found : l.bounds? = some scene) {id : String} {points : List (Point G)}
    (drawn : l.edges.get? id = some points) : ∀ p ∈ points, scene.Holds p := by
  obtain ⟨source, target, a, b, first, second, rfl⟩ := line_of_drawn laidOut drawn
  have held {id : String} {box : Bounds G} (placed : l.nodes.get? id = some box) :
      scene.Holds box.center :=
    (Layout.bounds?_covers found placed).holds
      (Bounds.holds_center (proper_of_placed laidOut placed))
  simp [held first, held second]

end Layered

end Storyboard
