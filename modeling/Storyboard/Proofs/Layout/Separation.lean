import Mathlib.Data.List.Permutation
import Storyboard.Proofs.Layout.Rows
import Storyboard.Proofs.Lists
import Storyboard.Proofs.OrderedMap

/-!
# Nodes do not overlap

The layered layout gives every node a box of its size. The boxes of a rank keep the gap between
nodes, the ranks follow one another with at least the gap between ranks, and so no two boxes
overlap (`layout_separates`). The shift to the origin moves all boxes alike and changes none of this.
-/

namespace Storyboard

variable {G : Type}

namespace Bounds

section

variable [Scalar G]

def size (b : Bounds G) : Size G := ⟨b.width, b.height⟩

/-- Whether a point lies inside a box and not on its border. -/
def Inside (b : Bounds G) (p : Point G) : Prop :=
  b.minX < p.x ∧ p.x < b.maxX ∧ b.minY < p.y ∧ p.y < b.maxY

/-- Whether no point lies inside both boxes. -/
def Apart (a b : Bounds G) : Prop := ∀ p, ¬(a.Inside p ∧ b.Inside p)

theorem Apart.symm {a b : Bounds G} (apart : a.Apart b) : b.Apart a :=
  fun p both => apart p ⟨both.2, both.1⟩

end

/-- What commutes with merging two boxes commutes with merging any number of them. -/
theorem mergeAll?_map [Scalar G] {f : Bounds G → Bounds G}
    (commutes : ∀ a b, (f a).merge (f b) = f (a.merge b)) (boxes : List (Bounds G)) :
    mergeAll? (boxes.map f) = (mergeAll? boxes).map f := by
  cases boxes with
  | nil => rfl
  | cons b rest =>
    rw [List.map_cons, mergeAll?, mergeAll?, Option.map_some]
    induction rest generalizing b with
    | nil => rfl
    | cons c rest ih => rw [List.map_cons, List.foldl_cons, commutes, ih, List.foldl_cons]

variable [ExactScalar G] {direction : Direction} {a b : Bounds G}

theorem apart_of_far_le_near (beside : direction.far a ≤ direction.near b) : a.Apart b := by
  rintro p ⟨⟨_, right, _, below⟩, left, _, above, _⟩
  cases direction
  · exact absurd (below.trans_le beside) above.not_gt
  · exact absurd (below.trans_le beside) above.not_gt
  · exact absurd (right.trans_le beside) left.not_gt
  · exact absurd (right.trans_le beside) left.not_gt

theorem apart_of_back_le_front (behind : direction.back a ≤ direction.front b) : a.Apart b := by
  rintro p ⟨⟨left, right, above, below⟩, left', right', above', below'⟩
  cases direction
  · exact absurd (right.trans_le behind) left'.not_gt
  · exact absurd (right'.trans_le (neg_le_neg_iff.mp behind)) left.not_gt
  · exact absurd (below.trans_le behind) above'.not_gt
  · exact absurd (below'.trans_le (neg_le_neg_iff.mp behind)) above.not_gt

/-! ### Moving boxes -/

theorem size_ofCenter (center : Point G) (s : Size G) : (ofCenter center s).size = s := by
  simp only [ofCenter, size, width, height]
  congr 1 <;> ring

variable (a b) (offset : Point G)

theorem size_translate : (a.translate offset).size = a.size := by
  simp only [translate, size, width, height]
  congr 1 <;> ring

theorem merge_translate :
    (a.translate offset).merge (b.translate offset) = (a.merge b).translate offset := by
  simp [translate, merge, min_add_add_right, max_add_add_right]

theorem mergeAll?_translate (boxes : List (Bounds G)) :
    mergeAll? (boxes.map fun b => b.translate offset) =
      (mergeAll? boxes).map fun b => b.translate offset :=
  mergeAll?_map (fun a b => merge_translate a b offset) boxes

theorem near_translate : direction.near (a.translate offset) =
    direction.near a + if direction.isHorizontal then offset.y else offset.x := by
  cases direction <;> rfl

theorem far_translate : direction.far (a.translate offset) =
    direction.far a + if direction.isHorizontal then offset.y else offset.x := by
  cases direction <;> rfl

theorem front_translate :
    direction.front (a.translate offset) = direction.front a + direction.onward offset := by
  cases direction <;> simp [Direction.front, Direction.onward, translate, add_comm]

theorem back_translate :
    direction.back (a.translate offset) = direction.back a + direction.onward offset := by
  cases direction <;> simp [Direction.back, Direction.onward, translate, add_comm]

theorem onward_translate : direction.onward (a.translate offset).center =
    direction.onward a.center + direction.onward offset := by
  cases direction <;> simp only [Direction.onward, translate, center] <;> ring

end Bounds

namespace Layered

section

/-! ### Positions and ranks of nodes -/

/-- The nodes, rank by rank. -/
def ranked (nodes : List (Node G)) (edges : List (Nat × Nat)) : List (List (Node G)) :=
  (Graph.ranks ⟨nodes.length, edges⟩).map fun rank => rank.filterMap fun i => nodes[i]?

variable {nodes : List (Node G)}

theorem indexOf?_getElem (distinct : (nodes.map Node.id).Nodup) {i : Nat} {n : Node G}
    (here : nodes[i]? = some n) : indexOf? nodes n.id = some i := by
  obtain ⟨inside, rfl⟩ := List.getElem?_eq_some_iff.mp here
  obtain ⟨j, found⟩ := exists_indexOf? (List.mem_map_of_mem (f := Node.id) (List.getElem_mem inside))
  obtain ⟨bound, same⟩ := List.mem_filter.mp (List.mem_of_getLast? found)
  have bound := List.mem_range.mp bound
  rw [List.getElem?_eq_getElem bound, Option.any_some, beq_iff_eq] at same
  have equal : nodes[j] = nodes[i] :=
    List.inj_on_of_nodup_map distinct (List.getElem_mem bound) (List.getElem_mem inside) same
  rw [found, distinct.of_map.getElem_inj_iff.mp equal]

theorem inside_of_mem_ranks {size : Nat} {edges : List (Nat × Nat)} {rank : List Nat}
    (member : rank ∈ (Graph.ranks ⟨size, edges⟩)) {i : Nat} (own : i ∈ rank) : i < size :=
  List.mem_range.mp ((Graph.ranks_perm _).mem_iff.mp (List.mem_flatten.mpr ⟨rank, member, own⟩))

/-- Every position of a rank is that of a node. -/
theorem ranks_filterMap {α : Type} (f : Nat → Node G → α) (edges : List (Nat × Nat)) :
    ((Graph.ranks ⟨nodes.length, edges⟩).map fun rank =>
        rank.filterMap fun i => (nodes[i]?).map (f i)) =
      (Graph.ranks ⟨nodes.length, edges⟩).map (List.map fun i => f i (nodes.getD i default)) := by
  refine List.map_congr_left fun rank member => ?_
  rw [← List.filterMap_eq_map]
  refine List.filterMap_congr fun i own => ?_
  simp [List.getElem?_eq_getElem (inside_of_mem_ranks member own)]

theorem ranked_eq_map (nodes : List (Node G)) (edges : List (Nat × Nat)) :
    ranked nodes edges = (Graph.ranks ⟨nodes.length, edges⟩).map
      (List.map fun i => nodes.getD i default) := by
  simpa [ranked] using ranks_filterMap (fun _ (n : Node G) => n) edges

theorem ranked_perm (nodes : List (Node G)) (edges : List (Nat × Nat)) :
    (ranked nodes edges).flatten.Perm nodes := by
  rw [ranked_eq_map, ← List.map_flatten]
  refine ((Graph.ranks_perm _).map _).trans (.of_eq (List.ext_getElem ?_ ?_))
  · simp [Graph.nodes]
  · intro i _ inside
    simp [Graph.nodes, inside]

theorem ranked_filled (nodes : List (Node G)) (edges : List (Nat × Nat)) : [] ∉ ranked nodes edges := by
  rw [ranked_eq_map]
  simpa using Graph.ranks_filled _

/-! ### Boxes of nodes -/

variable [Scalar G]

/-- The size of the node at a position. -/
def sizeAt (nodes : List (Node G)) (i : Nat) : Size G := nodeSize (nodes.getD i default)

theorem rows_nodup (direction : Direction) (spacing : Spacing G) (size : Nat → Size G) (g : Graph) :
    ((rows direction spacing size 0 g.ranks).flatten.map Prod.fst).Nodup := by
  rw [List.map_flatten, rows_keys]
  exact g.ranks_perm.nodup_iff.mpr List.nodup_range

theorem centers_eq_rows (spacing : Spacing G) (direction : Direction) (edges : List (Nat × Nat)) :
    placeRanks direction spacing 0 ((Graph.ranks ⟨nodes.length, edges⟩).map fun rank =>
        rank.filterMap fun i => (nodes[i]?).map fun n => (i, nodeSize n)) =
      (rows direction spacing (sizeAt nodes) 0 (Graph.ranks ⟨nodes.length, edges⟩)).flatten := by
  rw [ranks_filterMap (fun i n => (i, nodeSize n)) edges]
  exact placeRanks_eq_rows direction spacing (sizeAt nodes) 0 _

/-- Each node has the box around the place of its position in the rows. -/
theorem unshifted_get? (distinct : (nodes.map Node.id).Nodup) {spacing : Spacing G}
    {direction : Direction} {edges : List (Nat × Nat)} {e : Nat × Point G}
    (placed : e ∈ (rows direction spacing (sizeAt nodes) 0
      (Graph.ranks ⟨nodes.length, edges⟩)).flatten) {n : Node G} (here : nodes[e.1]? = some n) :
    (unshifted spacing direction nodes edges).get? n.id = some (boxAt (sizeAt nodes) e) := by
  have center : (rows direction spacing (sizeAt nodes) 0
      (Graph.ranks ⟨nodes.length, edges⟩)).flatten.lookup e.1 = some e.2 :=
    OrderedMap.get?_of_mem (m := ⟨_⟩) (rows_nodup direction spacing _ _) placed
  unfold unshifted
  dsimp only
  rw [centers_eq_rows]
  refine (OrderedMap.get?_ofList (distinct.sublist (keys_sublist ?_ _))).mpr
    (List.mem_filterMap.mpr ⟨n, List.mem_of_getElem? here, ?_⟩)
  · intro n e found
    simp only [Option.bind_eq_bind, Option.bind_eq_some_iff] at found
    obtain ⟨_, _, _, _, _, _, same⟩ := found
    obtain rfl := Option.some.inj same
    rfl
  · rw [indexOf?_getElem distinct here]
    simp [here, center, boxAt, sizeAt]

/-- The line of an edge joins the centers of its ends, unless a later edge has the same id. -/
theorem edgeLines_last {boxes : OrderedMap String (Bounds G)} {before after : List (Edge G)}
    {e : Edge G} (last : e.id ∉ after.map Edge.id) {a b : Bounds G}
    (source : boxes.get? e.source = some a) (target : boxes.get? e.target = some b) :
    (edgeLines boxes (before ++ e :: after)).get? e.id = some [a.center, b.center] := by
  rw [edgeLines, List.filterMap_append,
    List.filterMap_cons_some (b := (e.id, [a.center, b.center])) (by simp [source, target])]
  refine OrderedMap.get?_ofList_last _ fun later => last ((keys_sublist ?_ after).subset later)
  intro e entry found
  simp only [Option.bind_eq_bind, Option.bind_eq_some_iff] at found
  obtain ⟨_, _, _, _, same⟩ := found
  obtain rfl := Option.some.inj same
  rfl

/-- Boxes of nodes that stand rank by rank along the flow, with gaps between them. -/
structure Spaced (spacing : Spacing G) (direction : Direction) (ranks : List (List (Node G)))
    (box : Node G → Bounds G) : Prop where
  size : ∀ rank ∈ ranks, ∀ n ∈ rank, (box n).size = nodeSize n
  /-- Consecutive nodes of a rank are exactly the gap apart. -/
  gap : ∀ rank ∈ ranks, rank.IsChain fun n m =>
    direction.near (box m) = direction.far (box n) + spacing.node
  beside : ∀ rank ∈ ranks, rank.Pairwise fun n m => direction.far (box n) ≤ direction.near (box m)
  /-- A rank ends at least the gap before each later rank begins, and the centers move on. -/
  advance : ranks.Pairwise fun rank later => ∀ n ∈ rank, ∀ m ∈ later,
    direction.back (box n) + spacing.rank ≤ direction.front (box m) ∧
      direction.onward (box n).center < direction.onward (box m).center

end

variable [ExactScalar G] {spacing : Spacing G} {direction : Direction} {nodes : List (Node G)}

theorem nodeSize_pos (n : Node G) : 0 < (nodeSize n).width ∧ 0 < (nodeSize n).height := by
  simp only [nodeSize, ExactScalar.greatest_eq]
  have wide : (0 : G) < Scalar.ofNat 120 := by simp
  have high : (0 : G) < Scalar.ofNat 60 := by simp
  exact ⟨wide.trans_le (le_max_right _ _), high.trans_le (le_max_right _ _)⟩

theorem along_pos (i : Nat) : 0 < along direction (sizeAt nodes i) := by
  obtain ⟨wide, high⟩ := nodeSize_pos (nodes.getD i default)
  unfold along
  split
  · exact wide
  · exact high

theorem across_pos (i : Nat) : 0 < across direction (sizeAt nodes i) := by
  obtain ⟨wide, high⟩ := nodeSize_pos (nodes.getD i default)
  unfold across
  split
  · exact high
  · exact wide

/-- The rows are spaced. -/
theorem spaced_rows (room : 0 ≤ spacing.node ∧ 0 ≤ spacing.rank) (start : G)
    {ranks : List (List Nat)} {box : Node G → Bounds G}
    (boxed : ∀ r ∈ rows direction spacing (sizeAt nodes) start ranks, ∀ e ∈ r,
      box (nodes.getD e.1 default) = boxAt (sizeAt nodes) e) :
    Spaced spacing direction (ranks.map (List.map fun i => nodes.getD i default)) box := by
  have named : ranks.map (List.map fun i => nodes.getD i default) =
      (rows direction spacing (sizeAt nodes) start ranks).map
        (List.map fun e => nodes.getD e.1 default) := by
    conv_lhs => rw [← rows_keys direction spacing (sizeAt nodes) start ranks]
    simp
  have later : (rows direction spacing (sizeAt nodes) start ranks).Pairwise _ :=
    rows_apart along_pos room.2 start ranks
  rw [named]
  refine ⟨?_, ?_, ?_, ?_⟩
  · intro rank member n own
    obtain ⟨r, inside, rfl⟩ := List.mem_map.mp member
    obtain ⟨e, here, rfl⟩ := List.mem_map.mp own
    rw [boxed r inside e here]
    exact Bounds.size_ofCenter _ _
  · intro rank member
    obtain ⟨r, inside, rfl⟩ := List.mem_map.mp member
    obtain ⟨main, offset, keys, rfl⟩ := mem_rows inside
    rw [List.isChain_map]
    refine (row_chain offset keys).imp_of_mem_imp fun a b first second gap => ?_
    rwa [boxed _ inside a first, boxed _ inside b second]
  · intro rank member
    obtain ⟨r, inside, rfl⟩ := List.mem_map.mp member
    obtain ⟨main, offset, keys, rfl⟩ := mem_rows inside
    rw [List.pairwise_map]
    refine (row_apart across_pos room.1 offset keys).imp_of_mem fun first second apart => ?_
    rwa [boxed _ inside _ first, boxed _ inside _ second]
  · rw [List.pairwise_map]
    refine later.imp_of_mem fun first second apart n own m other => ?_
    obtain ⟨a, here, rfl⟩ := List.mem_map.mp own
    obtain ⟨b, there, rfl⟩ := List.mem_map.mp other
    rw [boxed _ first a here, boxed _ second b there]
    exact apart a here b there

/-- No two of the nodes overlap. -/
theorem Spaced.apart {ranks : List (List (Node G))} {box : Node G → Bounds G}
    (spaced : Spaced spacing direction ranks box) (room : 0 ≤ spacing.rank) :
    ranks.flatten.Pairwise fun n m => (box n).Apart (box m) := by
  refine List.pairwise_flatten.mpr ⟨fun rank member => ?_, ?_⟩
  · exact (spaced.beside rank member).imp Bounds.apart_of_far_le_near
  · refine spaced.advance.imp fun advance n own m other => ?_
    have behind := (advance n own m other).1
    exact Bounds.apart_of_back_le_front ((le_add_of_nonneg_right room).trans behind)

/-- The boxes keep their distances where all are moved alike. -/
theorem Spaced.translate {ranks : List (List (Node G))} {box : Node G → Bounds G}
    (spaced : Spaced spacing direction ranks box) (offset : Point G) :
    Spaced spacing direction ranks fun n => (box n).translate offset := by
  refine ⟨fun rank member n own => ?_, fun rank member => ?_, fun rank member => ?_, ?_⟩
  · rw [Bounds.size_translate, spaced.size rank member n own]
  · refine (spaced.gap rank member).imp fun n m gap => ?_
    rw [Bounds.near_translate, Bounds.far_translate, gap]
    ring
  · refine (spaced.beside rank member).imp fun beside => ?_
    rw [Bounds.near_translate, Bounds.far_translate]
    exact add_le_add_left beside _
  · refine spaced.advance.imp fun advance n own m other => ?_
    obtain ⟨behind, onward⟩ := advance n own m other
    rw [Bounds.back_translate, Bounds.front_translate, Bounds.onward_translate, Bounds.onward_translate]
    constructor <;> linarith

/-! ### The shift to the origin -/

theorem shifted_of_merged {boxes : OrderedMap String (Bounds G)} {whole : Bounds G}
    (merged : Bounds.mergeAll? boxes.values = some whole) :
    shifted boxes = boxes.mapValues fun b => b.translate ⟨-whole.minX, -whole.minY⟩ := by
  simp only [shifted, merged, OrderedMap.mapValues]

/-- The boxes are moved alike, and the box around them then starts at the origin. -/
theorem shifted_translates (boxes : OrderedMap String (Bounds G)) (some_box : boxes.values ≠ []) :
    ∃ offset, (∀ id, (shifted boxes).get? id = (boxes.get? id).map fun b => b.translate offset) ∧
      ∃ b, Bounds.mergeAll? (shifted boxes).values = some b ∧ b.minX = 0 ∧ b.minY = 0 := by
  obtain ⟨whole, merged⟩ : ∃ b, Bounds.mergeAll? boxes.values = some b := by
    cases values : boxes.values with
    | nil => exact absurd values some_box
    | cons b rest => exact ⟨_, rfl⟩
  refine ⟨⟨-whole.minX, -whole.minY⟩, fun id => ?_, whole.translate ⟨-whole.minX, -whole.minY⟩, ?_,
    add_neg_cancel _, add_neg_cancel _⟩
  · rw [shifted_of_merged merged, OrderedMap.get?_mapValues]
  · rw [shifted_of_merged merged, OrderedMap.values_mapValues, Bounds.mergeAll?_translate, merged]
    rfl

/-! ### The layout -/

/-- The boxes before the shift. -/
theorem spaced_unshifted (room : 0 ≤ spacing.node ∧ 0 ≤ spacing.rank)
    (distinct : (nodes.map Node.id).Nodup) (edges : List (Nat × Nat)) :
    Spaced spacing direction (ranked nodes edges) fun n =>
      ((unshifted spacing direction nodes edges).get? n.id).getD default := by
  rw [ranked_eq_map]
  refine spaced_rows room (Scalar.ofNat 0) fun r member e own => ?_
  have keys : r.map Prod.fst ∈ Graph.ranks ⟨nodes.length, edges⟩ := by
    rw [← rows_keys direction spacing (sizeAt nodes) (Scalar.ofNat 0) (Graph.ranks _)]
    exact List.mem_map_of_mem member
  have inside := inside_of_mem_ranks keys (List.mem_map_of_mem own)
  have here : nodes[e.1]? = some (nodes.getD e.1 default) := by
    simp [List.getElem?_eq_getElem inside]
  rw [unshifted_get? distinct (List.mem_flatten.mpr ⟨r, member, own⟩) here, Option.getD_some]

/-- Nodes with ids of their own are laid out without overlap: the boxes have the sizes of the nodes,
those of a rank are the gap between nodes apart, each rank ends the gap between ranks or more before
the next one begins, everything starts at the origin, and a line joins the centers of its ends. Of
edges with the same id the last one has its line. -/
theorem layout_separates (spacing : Spacing G) (direction : Direction) (nodes : List (Node G))
    (edges : List (Edge G)) (room : 0 ≤ spacing.node ∧ 0 ≤ spacing.rank) (some_node : nodes ≠ [])
    (distinct : (nodes.map Node.id).Nodup)
    (ends : ∀ e ∈ edges, e.source ∈ nodes.map Node.id ∧ e.target ∈ nodes.map Node.id) :
    ∃ indices l box, edgeIndices nodes edges = .ok indices ∧
      layout spacing direction nodes edges = .ok l ∧
      (∀ n ∈ nodes, l.nodes.get? n.id = some (box n) ∧ (box n).size = nodeSize n) ∧
      nodes.Pairwise (fun n m => (box n).Apart (box m)) ∧
      (ranked nodes indices).flatten.Perm nodes ∧ [] ∉ ranked nodes indices ∧
      Spaced spacing direction (ranked nodes indices) box ∧
      (∃ whole, l.bounds? = some whole ∧ whole.minX = 0 ∧ whole.minY = 0) ∧
      ∀ before e after, edges = before ++ e :: after → e.id ∉ after.map Edge.id →
        ∃ n ∈ nodes, ∃ m ∈ nodes, n.id = e.source ∧ m.id = e.target ∧
          l.edges.get? e.id = some [(box n).center, (box m).center] := by
  obtain ⟨indices, read⟩ := exists_edgeIndices ends
  have placed : ∀ n ∈ nodes, (unshifted spacing direction nodes indices).get? n.id =
      some (((unshifted spacing direction nodes indices).get? n.id).getD default) := by
    intro n member
    obtain ⟨b, found⟩ := Option.isSome_iff_exists.mp
      (isSome_get?_unshifted spacing direction nodes indices member)
    rw [found, Option.getD_some]
  have some_box : (unshifted spacing direction nodes indices).values ≠ [] := by
    obtain ⟨n, member⟩ := List.exists_mem_of_ne_nil nodes some_node
    have found := placed n member
    intro none
    rw [OrderedMap.get?, List.map_eq_nil_iff.mp none] at found
    cases found
  obtain ⟨offset, moved, whole, merged, left, top⟩ := shifted_translates _ some_box
  have spaced : Spaced spacing direction (ranked nodes indices) _ :=
    (spaced_unshifted room distinct indices).translate offset
  have ranks := ranked_perm nodes indices
  have boxes : ∀ n ∈ nodes, (shifted (unshifted spacing direction nodes indices)).get? n.id =
      some ((((unshifted spacing direction nodes indices).get? n.id).getD default).translate offset) := by
    intro n member
    rw [moved, placed n member]
    rfl
  refine ⟨indices, ⟨shifted (unshifted spacing direction nodes indices), _⟩, _, read,
    by rw [layout, read]; rfl, fun n member => ⟨boxes n member, ?_⟩, ?_,
    ranks, ranked_filled nodes indices, spaced, ⟨whole, merged, left, top⟩, ?_⟩
  · obtain ⟨rank, inside, own⟩ := List.mem_flatten.mp (ranks.mem_iff.mpr member)
    exact spaced.size rank inside n own
  · exact (ranks.pairwise_iff Bounds.Apart.symm).mp (spaced.apart room.2)
  · rintro before e after rfl last
    obtain ⟨source, target⟩ := ends e (by simp)
    obtain ⟨n, here, source⟩ := List.mem_map.mp source
    obtain ⟨m, there, target⟩ := List.mem_map.mp target
    exact ⟨n, here, m, there, source, target,
      edgeLines_last last (source ▸ boxes n here) (target ▸ boxes m there)⟩

/-- Two pairs of nodes whose edges have one id. -/
def twinNodes : List (Node Rat) :=
  ["A", "B_to_C", "A_to_B", "C"].map fun id => { id := id, label := id }

def twinEdges : List (Edge Rat) :=
  [("A", "B_to_C"), ("A_to_B", "C")].map fun ends =>
    { id := Edge.idOf ends.1 ends.2 0, source := ends.1, target := ends.2 }

/-- All four boxes are apart, and the line of the shared id is that of the second edge. -/
theorem layout_separates_twins : ∃ l, ∃ box : Node Rat → Bounds Rat,
    layout ⟨60, 80⟩ .leftRight twinNodes twinEdges = .ok l ∧
      twinNodes.Pairwise (fun n m => (box n).Apart (box m)) ∧
      ∃ n ∈ twinNodes, ∃ m ∈ twinNodes, n.id = "A_to_B" ∧ m.id = "C" ∧
        l.edges.get? "A_to_B_to_C" = some [(box n).center, (box m).center] := by
  obtain ⟨_, l, box, _, done, _, apart, _, _, _, _, lines⟩ :=
    layout_separates ⟨60, 80⟩ .leftRight twinNodes twinEdges (by decide) (by decide) (by decide)
      (by decide)
  exact ⟨l, box, done, apart, lines [_] _ [] rfl (by decide)⟩

theorem twin_ranks : Graph.ranks ⟨twinNodes.length, [(0, 1), (2, 3)]⟩ = [[0, 2], [1, 3]] := by cbv

/-- Of two edges with one id the first has no line of its own. -/
theorem layout_overwrites : ∃ e ∈ twinEdges, ∃ l a b,
    layout ⟨60, 80⟩ .leftRight twinNodes twinEdges = .ok l ∧
      l.nodes.get? e.source = some a ∧ l.nodes.get? e.target = some b ∧
      l.edges.get? e.id ≠ some [a.center, b.center] := by
  have read : edgeIndices twinNodes twinEdges = .ok [(0, 1), (2, 3)] := by decide +kernel
  refine ⟨_, List.mem_cons_self, _, ⟨0, 0, 120, 60⟩, ⟨200, 0, 320, 60⟩,
    by rw [layout, read]; rfl, ?_⟩
  unfold unshifted
  dsimp only
  rw [twin_ranks]
  decide +kernel

end Layered

end Storyboard
