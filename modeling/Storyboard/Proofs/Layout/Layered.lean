import Storyboard.Layout.Layered
import Storyboard.Proofs.Layout.Ranks

/-!
# The layered layout is total

If every edge leads from node to node, the layout places each node and draws each edge as a line
with two points (`layout_total`). The ranks hold every node, so each has a center.
-/

namespace Storyboard

namespace Layered

variable {G : Type}

/-! ### Positions -/

theorem indexOf?_eq_some {nodes : List (Node G)} {id : String} {i : Nat}
    (found : indexOf? nodes id = some i) : i < nodes.length :=
  List.mem_range.mp (List.mem_filter.mp (List.mem_of_getLast? found)).1

theorem exists_indexOf? {nodes : List (Node G)} {id : String} (member : id ∈ nodes.map Node.id) :
    ∃ i, indexOf? nodes id = some i := by
  obtain ⟨n, present, rfl⟩ := List.mem_map.mp member
  obtain ⟨i, bound, rfl⟩ := List.mem_iff_getElem.mp present
  have fits : i ∈ (List.range nodes.length).filter
      fun j => (nodes[j]?).any (fun n => n.id == nodes[i].id) :=
    List.mem_filter.mpr ⟨List.mem_range.mpr bound, by simp [List.getElem?_eq_getElem bound]⟩
  exact ⟨_, List.getLast?_eq_some_getLast (List.ne_nil_of_mem fits)⟩

/-- The edges are pairs of positions if they lead from node to node. -/
theorem exists_edgeIndices {nodes : List (Node G)} {edges : List (Edge G)}
    (ends : ∀ e ∈ edges, e.source ∈ nodes.map Node.id ∧ e.target ∈ nodes.map Node.id) :
    ∃ indices, edgeIndices nodes edges = .ok indices := by
  induction edges with
  | nil => exact ⟨[], rfl⟩
  | cons e rest ih =>
    obtain ⟨source, target⟩ := ends e List.mem_cons_self
    obtain ⟨a, first⟩ := exists_indexOf? source
    obtain ⟨b, second⟩ := exists_indexOf? target
    obtain ⟨indices, later⟩ := ih fun e member => ends e (List.mem_cons_of_mem _ member)
    refine ⟨(a, b) :: indices, ?_⟩
    rw [edgeIndices] at later ⊢
    rw [List.mapM_cons, first, second, later]
    rfl

/-! ### Centers -/

variable [Scalar G]

theorem placeInRank_keys (direction : Direction) (gap main offset : G)
    (rank : List (Nat × Size G)) :
    (placeInRank direction gap main offset rank).map Prod.fst = rank.map Prod.fst := by
  induction rank generalizing offset with
  | nil => rfl
  | cons entry rest ih =>
    obtain ⟨i, size⟩ := entry
    rw [placeInRank, List.map_cons, ih, List.map_cons]

theorem placeRanks_keys (direction : Direction) (spacing : Spacing G) (start : G)
    (ranks : List (List (Nat × Size G))) :
    (placeRanks direction spacing start ranks).map Prod.fst = ranks.flatten.map Prod.fst := by
  induction ranks generalizing start with
  | nil => rfl
  | cons rank rest ih =>
    simp only [placeRanks, List.map_append, placeInRank_keys, ih, List.flatten_cons]

/-- Every node whose size is known has a center. -/
theorem exists_center (direction : Direction) (spacing : Spacing G)
    (sized : Nat → Option (Nat × Size G)) (g : Graph) {i : Nat} {size : Size G}
    (inside : i < g.size) (found : sized i = some (i, size)) : ∃ center,
      (placeRanks direction spacing 0 (g.ranks.map fun rank => rank.filterMap sized)).lookup i =
        some center := by
  have key : i ∈ (placeRanks direction spacing 0
      (g.ranks.map fun rank => rank.filterMap sized)).map Prod.fst := by
    obtain ⟨rank, ranked, member⟩ := List.mem_flatten.mp (g.mem_ranks inside)
    rw [placeRanks_keys]
    refine List.mem_map.mpr ⟨(i, size), List.mem_flatten.mpr ⟨_, List.mem_map_of_mem ranked, ?_⟩, rfl⟩
    exact List.mem_filterMap.mpr ⟨i, member, found⟩
  generalize placeRanks direction spacing 0 (g.ranks.map fun rank => rank.filterMap sized) = centers
    at key ⊢
  have known := (OrderedMap.contains_iff ⟨centers⟩ i).mpr key
  rw [← OrderedMap.get?_isSome] at known
  exact Option.isSome_iff_exists.mp known

/-! ### Boxes and lines -/

theorem isSome_get?_unshifted (spacing : Spacing G) (direction : Direction)
    (nodes : List (Node G)) (edges : List (Nat × Nat)) {n : Node G} (member : n ∈ nodes) :
    ((unshifted spacing direction nodes edges).get? n.id).isSome = true := by
  obtain ⟨i, found⟩ := exists_indexOf? (List.mem_map_of_mem (f := Node.id) member)
  have inside := indexOf?_eq_some found
  unfold unshifted
  dsimp only
  rw [OrderedMap.isSome_get?_ofList]
  obtain ⟨center, placed⟩ := exists_center direction spacing
    (fun i => (nodes[i]?).map fun n => (i, nodeSize n)) ⟨nodes.length, edges⟩ inside
    (by rw [List.getElem?_eq_getElem inside]; rfl)
  refine List.mem_map.mpr ⟨(n.id, Bounds.ofCenter center (nodeSize nodes[i])),
    List.mem_filterMap.mpr ⟨n, member, ?_⟩, rfl⟩
  rw [found]
  simp only [Option.bind_eq_bind, Option.bind_some, List.getElem?_eq_getElem inside, Option.map_some]
  rw [placed]
  rfl

theorem isSome_get?_shifted (boxes : OrderedMap String (Bounds G)) (id : String) :
    ((shifted boxes).get? id).isSome = (boxes.get? id).isSome := by
  rw [OrderedMap.get?_isSome, OrderedMap.get?_isSome]
  simp only [shifted, OrderedMap.contains, List.any_map]
  rfl

theorem edgeLines_get? {boxes : OrderedMap String (Bounds G)} {edges : List (Edge G)} {e : Edge G}
    (member : e ∈ edges) (source : (boxes.get? e.source).isSome = true)
    (target : (boxes.get? e.target).isSome = true) :
    ∃ p q, (edgeLines boxes edges).get? e.id = some [p, q] := by
  obtain ⟨a, first⟩ := Option.isSome_iff_exists.mp source
  obtain ⟨b, second⟩ := Option.isSome_iff_exists.mp target
  have drawn : ((edgeLines boxes edges).get? e.id).isSome = true := by
    rw [edgeLines, OrderedMap.isSome_get?_ofList]
    refine List.mem_map.mpr ⟨(e.id, [a.center, b.center]), List.mem_filterMap.mpr ⟨e, member, ?_⟩, rfl⟩
    rw [first, second]
    rfl
  -- The line may be that of a later edge with the same id.
  obtain ⟨line, found⟩ := Option.isSome_iff_exists.mp drawn
  obtain ⟨e', _, entry⟩ := List.mem_filterMap.mp (OrderedMap.mem_of_get?_ofList found)
  simp only [Option.bind_eq_bind, Option.bind_eq_some_iff] at entry
  obtain ⟨a', _, b', _, same⟩ := entry
  obtain ⟨_, rfl⟩ := Prod.mk.inj (Option.some.inj same)
  exact ⟨_, _, found⟩

/-- Nodes and edges that lead from node to node are laid out: each node has a box, and the line of
each edge has two points. -/
theorem layout_total (spacing : Spacing G) (direction : Direction) {nodes : List (Node G)}
    {edges : List (Edge G)}
    (ends : ∀ e ∈ edges, e.source ∈ nodes.map Node.id ∧ e.target ∈ nodes.map Node.id) :
    ∃ l, layout spacing direction nodes edges = .ok l ∧
      (∀ n ∈ nodes, (l.nodes.get? n.id).isSome = true) ∧
      ∀ e ∈ edges, ∃ p q, l.edges.get? e.id = some [p, q] := by
  obtain ⟨indices, read⟩ := exists_edgeIndices ends
  have placed : ∀ n ∈ nodes,
      ((shifted (unshifted spacing direction nodes indices)).get? n.id).isSome = true := by
    intro n member
    rw [isSome_get?_shifted]
    exact isSome_get?_unshifted spacing direction nodes indices member
  refine ⟨_, by rw [layout, read]; rfl, placed, ?_⟩
  intro e member
  obtain ⟨source, target⟩ := ends e member
  obtain ⟨n, here, first⟩ := List.mem_map.mp source
  obtain ⟨m, there, second⟩ := List.mem_map.mp target
  exact edgeLines_get? member (first ▸ placed n here) (second ▸ placed m there)

end Layered

end Storyboard
