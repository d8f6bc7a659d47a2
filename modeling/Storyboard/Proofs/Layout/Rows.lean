import Mathlib.Tactic.Ring
import Storyboard.Proofs.Layout.Layered
import Storyboard.Proofs.Number.Exact

/-!
# Rows of boxes

A rank is placed as a row of boxes with gaps between them (`row_chain`), and each row of a layout
ends before the next one begins in the direction of the flow (`rows_apart`).
-/

namespace Storyboard

variable {G : Type}

/-! ### Sides of a box -/

namespace Direction

variable [Scalar G]

/-- The coordinate of a point along the flow. It grows in the direction of the flow. -/
def onward (direction : Direction) (p : Point G) : G :=
  match direction with
  | leftRight => p.x
  | rightLeft => -p.x
  | topDown => p.y
  | bottomTop => -p.y

/-- Where a box begins along the flow. -/
def front (direction : Direction) (b : Bounds G) : G :=
  match direction with
  | leftRight => b.minX
  | rightLeft => -b.maxX
  | topDown => b.minY
  | bottomTop => -b.maxY

/-- Where a box ends along the flow. -/
def back (direction : Direction) (b : Bounds G) : G :=
  match direction with
  | leftRight => b.maxX
  | rightLeft => -b.minX
  | topDown => b.maxY
  | bottomTop => -b.minY

/-- Where a box begins across the flow. -/
def near (direction : Direction) (b : Bounds G) : G :=
  if direction.isHorizontal then b.minY else b.minX

/-- Where a box ends across the flow. -/
def far (direction : Direction) (b : Bounds G) : G :=
  if direction.isHorizontal then b.maxY else b.maxX

end Direction

namespace Layered

/-! ### Rows -/

section

variable [Scalar G]

/-- The box of a node around its center. -/
def boxAt (size : Nat → Size G) (e : Nat × Point G) : Bounds G := .ofCenter e.2 (size e.1)

/-- The centers of one rank, given as the positions of its nodes. -/
def row (direction : Direction) (size : Nat → Size G) (gap main offset : G) (rank : List Nat) :
    List (Nat × Point G) :=
  placeInRank direction gap main offset (rank.map fun i => (i, size i))

/-- The depth of a rank along the flow: that of its deepest node. -/
def depth (direction : Direction) (size : Nat → Size G) (rank : List Nat) : G :=
  (rank.map fun i => along direction (size i)).foldl Scalar.greatest 0

/-- The rows of a layout, from the coordinate at which the first of them starts on. -/
def rows (direction : Direction) (spacing : Spacing G) (size : Nat → Size G) :
    G → List (List Nat) → List (List (Nat × Point G))
  | _, [] => []
  | start, rank :: rest =>
    let breadth := (rank.map fun i => across direction (size i)).foldl (· + ·) 0 +
      spacing.node * Scalar.ofNat (rank.length - 1)
    row direction size spacing.node (start + depth direction size rank / 2) (-breadth / 2) rank ::
      rows direction spacing size (start + (depth direction size rank + spacing.rank)) rest

theorem placeRanks_eq_rows (direction : Direction) (spacing : Spacing G) (size : Nat → Size G)
    (start : G) (ranks : List (List Nat)) :
    placeRanks direction spacing start (ranks.map fun rank => rank.map fun i => (i, size i)) =
      (rows direction spacing size start ranks).flatten := by
  induction ranks generalizing start with
  | nil => rfl
  | cons rank rest ih =>
    simp only [List.map_cons, placeRanks, rows, List.flatten_cons, ih, List.map_map, Function.comp_def,
      List.length_map, depth, row]

theorem rows_keys (direction : Direction) (spacing : Spacing G) (size : Nat → Size G) (start : G)
    (ranks : List (List Nat)) :
    (rows direction spacing size start ranks).map (List.map Prod.fst) = ranks := by
  induction ranks generalizing start with
  | nil => rfl
  | cons rank rest ih => simp [rows, ih, row, placeInRank_keys, Function.comp_def]

end

variable [ExactScalar G] {direction : Direction}

/-! ### The sides of a placed box -/

theorem onward_ofCenter (main cross : G) (s : Size G) :
    direction.onward (Bounds.ofCenter (pointAt direction main cross) s).center = main := by
  cases direction <;>
    simp [Direction.onward, Bounds.ofCenter, Bounds.center, pointAt, Direction.isHorizontal,
      Direction.isReversed]

theorem front_ofCenter (main cross : G) (s : Size G) :
    direction.front (Bounds.ofCenter (pointAt direction main cross) s) =
      main - along direction s / 2 := by
  cases direction <;>
    simp [Direction.front, Bounds.ofCenter, pointAt, along, Direction.isHorizontal,
      Direction.isReversed, sub_eq_add_neg, add_comm]

theorem back_ofCenter (main cross : G) (s : Size G) :
    direction.back (Bounds.ofCenter (pointAt direction main cross) s) =
      main + along direction s / 2 := by
  cases direction <;>
    simp [Direction.back, Bounds.ofCenter, pointAt, along, Direction.isHorizontal,
      Direction.isReversed, add_comm]

theorem near_ofCenter (main cross : G) (s : Size G) :
    direction.near (Bounds.ofCenter (pointAt direction main cross) s) =
      cross - across direction s / 2 := by
  cases direction <;> rfl

theorem far_ofCenter (main cross : G) (s : Size G) :
    direction.far (Bounds.ofCenter (pointAt direction main cross) s) =
      cross + across direction s / 2 := by
  cases direction <;> rfl

/-! ### One row -/

section

variable {size : Nat → Size G} {gap main : G}

theorem row_cons (offset : G) (i : Nat) (rank : List Nat) :
    row direction size gap main offset (i :: rank) =
      (i, pointAt direction main (offset + across direction (size i) / 2)) ::
        row direction size gap main (offset + (across direction (size i) + gap)) rank := rfl

/-- The boxes of a row are about its axis. -/
theorem row_axis {offset : G} {rank : List Nat} {e : Nat × Point G}
    (member : e ∈ row direction size gap main offset rank) :
    e.1 ∈ rank ∧ direction.onward (boxAt size e).center = main ∧
      direction.front (boxAt size e) = main - along direction (size e.1) / 2 ∧
      direction.back (boxAt size e) = main + along direction (size e.1) / 2 := by
  induction rank generalizing offset with
  | nil => cases member
  | cons i rest ih =>
    rw [row_cons] at member
    rcases List.mem_cons.mp member with rfl | later
    · exact ⟨List.mem_cons_self, onward_ofCenter .., front_ofCenter .., back_ofCenter ..⟩
    · exact (ih later).imp_left (List.mem_cons_of_mem _)

theorem row_near (wide : ∀ i, 0 < across direction (size i)) (room : 0 ≤ gap) {offset : G}
    {rank : List Nat} {e : Nat × Point G}
    (member : e ∈ row direction size gap main offset rank) :
    offset ≤ direction.near (boxAt size e) := by
  induction rank generalizing offset with
  | nil => cases member
  | cons i rest ih =>
    rw [row_cons] at member
    rcases List.mem_cons.mp member with rfl | later
    · rw [boxAt, near_ofCenter]
      linarith
    · have further := ih later
      have extent := wide i
      linarith

/-- The gap between one box of a row and the next is kept. -/
theorem row_chain (offset : G) (rank : List Nat) :
    (row direction size gap main offset rank).IsChain fun a b =>
      direction.near (boxAt size b) = direction.far (boxAt size a) + gap := by
  induction rank generalizing offset with
  | nil => exact .nil
  | cons i rest ih =>
    rw [row_cons]
    cases rest with
    | nil => exact .singleton _
    | cons j rest =>
      have next := ih (offset + (across direction (size i) + gap))
      rw [row_cons] at next ⊢
      refine .cons_cons ?_ next
      rw [boxAt, boxAt, near_ofCenter, far_ofCenter]
      ring

/-- Of two boxes of a row, the first ends before the second begins. -/
theorem row_apart (wide : ∀ i, 0 < across direction (size i)) (room : 0 ≤ gap) (offset : G)
    (rank : List Nat) : (row direction size gap main offset rank).Pairwise fun a b =>
      direction.far (boxAt size a) ≤ direction.near (boxAt size b) := by
  induction rank generalizing offset with
  | nil => exact .nil
  | cons i rest ih =>
    rw [row_cons]
    refine .cons (fun e later => ?_) (ih _)
    have further := row_near wide room later
    rw [boxAt, far_ofCenter]
    linarith

/-! ### All rows -/

theorem foldl_greatest (xs : List G) (x : G) :
    x ≤ xs.foldl Scalar.greatest x ∧ ∀ y ∈ xs, y ≤ xs.foldl Scalar.greatest x := by
  induction xs generalizing x with
  | nil => simp
  | cons y xs ih =>
    obtain ⟨first, others⟩ := ih (Scalar.greatest x y)
    rw [ExactScalar.greatest_eq] at first others
    simp only [List.foldl_cons, ExactScalar.greatest_eq, List.forall_mem_cons]
    exact ⟨(le_max_left x y).trans first, (le_max_right x y).trans first, others⟩

theorem depth_nonneg (direction : Direction) (size : Nat → Size G) (rank : List Nat) :
    0 ≤ depth direction size rank := by
  have above := (foldl_greatest (rank.map fun i => along direction (size i)) 0).1
  rwa [depth, ExactScalar.zero_eq]

theorem along_le_depth (direction : Direction) (size : Nat → Size G) {rank : List Nat} {i : Nat}
    (member : i ∈ rank) : along direction (size i) ≤ depth direction size rank :=
  (foldl_greatest (rank.map fun i => along direction (size i)) _).2 _ (List.mem_map_of_mem member)

variable {spacing : Spacing G}

theorem mem_rows {start : G} {ranks : List (List Nat)} {r : List (Nat × Point G)}
    (member : r ∈ rows direction spacing size start ranks) :
    ∃ main offset rank, r = row direction size spacing.node main offset rank := by
  induction ranks generalizing start with
  | nil => cases member
  | cons rank rest ih =>
    rcases List.mem_cons.mp member with rfl | later
    · exact ⟨_, _, _, rfl⟩
    · exact ih later

theorem rows_front (room : 0 ≤ spacing.rank) {start : G} {ranks : List (List Nat)}
    {r : List (Nat × Point G)} (member : r ∈ rows direction spacing size start ranks)
    {e : Nat × Point G} (inside : e ∈ r) : start ≤ direction.front (boxAt size e) := by
  induction ranks generalizing start with
  | nil => cases member
  | cons rank rest ih =>
    rcases List.mem_cons.mp member with rfl | later
    · obtain ⟨own, _, front, _⟩ := row_axis inside
      have fits := along_le_depth direction size own
      rw [front]
      linarith
    · have further := ih later
      have nonneg := depth_nonneg direction size rank
      linarith

/-- Each row ends, with the gap, before the later ones begin, and their centers are further on. -/
theorem rows_apart (deep : ∀ i, 0 < along direction (size i)) (room : 0 ≤ spacing.rank) (start : G)
    (ranks : List (List Nat)) :
    (rows direction spacing size start ranks).Pairwise fun r later => ∀ a ∈ r, ∀ b ∈ later,
      direction.back (boxAt size a) + spacing.rank ≤ direction.front (boxAt size b) ∧
        direction.onward (boxAt size a).center < direction.onward (boxAt size b).center := by
  induction ranks generalizing start with
  | nil => exact .nil
  | cons rank rest ih =>
    refine .cons (fun later member a own b other => ?_) (ih _)
    obtain ⟨ranked, middle, _, back⟩ := row_axis own
    have fits := along_le_depth direction size ranked
    have extent := deep a.1
    have front := rows_front room member other
    obtain ⟨_, _, _, rfl⟩ := mem_rows member
    obtain ⟨_, middle', front', _⟩ := row_axis other
    have extent' := deep b.1
    rw [back, middle, middle']
    rw [front'] at front ⊢
    constructor <;> linarith

end

end Layered

end Storyboard
