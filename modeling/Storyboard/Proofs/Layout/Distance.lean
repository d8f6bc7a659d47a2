import Mathlib.Order.Bounds.Basic
import Storyboard.Proofs.Layout.Ranks

/-!
# Ranks are distances

All searches share one set of nodes that have no rank yet. A search takes from it all that its seed
reaches, so it never stands between a later seed and what that one reaches first; and the queue is in
the order of the ranks, so a node is taken up at its distance from the seed (`ranks_distance`).
-/

namespace Storyboard

namespace Graph

/-! ### Paths -/

/-- A way along edges that lead to nodes, with the number of edges on it. -/
inductive Path (g : Graph) : Nat → Nat → Nat → Prop where
  | nil (n : Nat) : Path g n n 0
  | cons {a b c k : Nat} (edge : (a, b) ∈ g.edges) (node : b < g.size) (rest : Path g b c k) :
    Path g a c (k + 1)

def Reaches (g : Graph) (a b : Nat) : Prop := ∃ k, g.Path a b k

/-- The first of the seeds from which the node can be reached. -/
def FirstReaching (g : Graph) (seeds : List Nat) (s n : Nat) : Prop :=
  ∃ before after, seeds = before ++ s :: after ∧ (∀ u ∈ before, ¬ g.Reaches u n) ∧ g.Reaches s n

variable {g : Graph}

theorem Path.snoc {a b c k : Nat} (path : g.Path a b k) (edge : (b, c) ∈ g.edges)
    (node : c < g.size) : g.Path a c (k + 1) := by
  induction path with
  | nil n => exact .cons edge node (.nil c)
  | cons first inside _ ih => exact .cons first inside (ih edge)

/-- A path on which no node has a rank yet. -/
inductive FreePath (g : Graph) (unranked : List Nat) : Nat → Nat → Nat → Prop where
  | nil {n : Nat} (free : n ∈ unranked) : FreePath g unranked n n 0
  | cons {a b c k : Nat} (free : a ∈ unranked) (edge : (a, b) ∈ g.edges)
    (rest : FreePath g unranked b c k) : FreePath g unranked a c (k + 1)

namespace FreePath

variable {unranked : List Nat} {a b k : Nat}

theorem start (path : g.FreePath unranked a b k) : a ∈ unranked := by
  cases path with
  | nil free => exact free
  | cons free _ _ => exact free

/-- What is left of a path when a node gets its rank: the path, if the node is not on it, or what
follows the node on it for the last time. -/
theorem erase {n : Nat} (path : g.FreePath unranked a b k) (other : b ≠ n) :
    g.FreePath (unranked.erase n) a b k ∨
      ∃ c j, c ∈ g.children n ∧ g.FreePath (unranked.erase n) c b j ∧ j + 1 ≤ k := by
  induction path with
  | nil free => exact .inl (.nil ((List.mem_erase_of_ne other).mpr free))
  | @cons a c b k free edge rest ih =>
    rcases ih other with whole | ⟨d, j, child, tail, shorter⟩
    · by_cases same : a = n
      · subst same
        refine .inr ⟨c, k, ?_, whole, Nat.le_refl _⟩
        exact List.mem_map.mpr ⟨(a, c), List.mem_filter.mpr ⟨edge, beq_self_eq_true a⟩, rfl⟩
      · exact .inl (.cons ((List.mem_erase_of_ne same).mpr free) edge whole)
    · exact .inr ⟨d, j, child, tail, Nat.le_succ_of_le shorter⟩

end FreePath

/-! ### One search -/

/-- Every edge out of a node with a rank leads to a node with a rank. -/
def Closed (g : Graph) (unranked : List Nat) : Prop :=
  ∀ a b, (a, b) ∈ g.edges → a < g.size → a ∉ unranked → b ∉ unranked

theorem Closed.freePath {unranked : List Nat} (closed : g.Closed unranked) {a b k : Nat}
    (node : a < g.size) (path : g.Path a b k) (free : b ∈ unranked) :
    g.FreePath unranked a b k := by
  induction path with
  | nil n => exact .nil free
  | @cons a c b k edge inside rest ih =>
    have tail := ih inside free
    by_cases ranked : a ∈ unranked
    · exact .cons ranked edge tail
    · exact absurd tail.start (closed a c edge node ranked)

/-- The queue of a search from a seed. It is in the order of the ranks, of which it holds two at
most, and each node that is still to be ranked can be reached through it as fast as from the seed. -/
structure Waiting (g : Graph) (seed : Nat) (unranked : List Nat) (queue : List (Nat × Nat)) :
    Prop where
  sound : ∀ e ∈ queue, e.1 ∈ unranked → g.Path seed e.1 e.2
  ordered : queue.Pairwise fun e later => e.2 ≤ later.2 ∧ later.2 ≤ e.2 + 1
  covered : ∀ n ∈ unranked, ∀ k, g.Path seed n k →
    ∃ e ∈ queue, ∃ j, g.FreePath unranked e.1 n j ∧ e.2 + j ≤ k

theorem Closed.waiting {unranked : List Nat} (closed : g.Closed unranked) {seed : Nat}
    (node : seed < g.size) : g.Waiting seed unranked [(seed, 0)] where
  sound e member _ := by
    obtain rfl := List.mem_singleton.mp member
    exact .nil seed
  ordered := List.pairwise_singleton _ _
  covered n free k path :=
    ⟨_, List.mem_cons_self, k, closed.freePath node path free, Nat.le_of_eq (Nat.zero_add k)⟩

namespace Waiting

variable {seed n rank : Nat} {unranked : List Nat} {queue : List (Nat × Nat)}

/-- A node that comes up without a rank is as far from the seed as the rank says. -/
theorem distance (waiting : g.Waiting seed unranked ((n, rank) :: queue)) (free : n ∈ unranked) :
    IsLeast {k | g.Path seed n k} rank := by
  refine ⟨waiting.sound _ List.mem_cons_self free, fun k path => ?_⟩
  obtain ⟨e, member, j, _, short⟩ := waiting.covered n free k path
  have early : rank ≤ e.2 := by
    rcases List.mem_cons.mp member with rfl | later
    · exact Nat.le_refl _
    · exact ((List.pairwise_cons.mp waiting.ordered).1 e later).1
  omega

theorem skip (waiting : g.Waiting seed unranked ((n, rank) :: queue)) (ranked : n ∉ unranked) :
    g.Waiting seed unranked queue where
  sound e member := waiting.sound e (List.mem_cons_of_mem _ member)
  ordered := waiting.ordered.of_cons
  covered m free k path := by
    obtain ⟨e, member, j, way, short⟩ := waiting.covered m free k path
    rcases List.mem_cons.mp member with rfl | later
    · exact absurd way.start ranked
    · exact ⟨e, later, j, way, short⟩

theorem expand (waiting : g.Waiting seed unranked ((n, rank) :: queue)) (free : n ∈ unranked)
    (distinct : unranked.Nodup) (inside : ∀ m ∈ unranked, m < g.size) :
    g.Waiting seed (unranked.erase n) (queue ++ (g.children n).map fun c => (c, rank + 1)) where
  sound e member left := by
    have still := List.mem_of_mem_erase left
    rcases List.mem_append.mp member with later | child
    · exact waiting.sound e (List.mem_cons_of_mem _ later) still
    · obtain ⟨c, found, rfl⟩ := List.mem_map.mp child
      obtain ⟨⟨a, b⟩, kept, rfl⟩ := List.mem_map.mp found
      obtain ⟨edge, same⟩ := List.mem_filter.mp kept
      obtain rfl : a = n := eq_of_beq same
      exact (waiting.sound _ List.mem_cons_self free).snoc edge (inside _ still)
  ordered := by
    obtain ⟨first, rest⟩ := List.pairwise_cons.mp waiting.ordered
    refine List.pairwise_append.mpr ⟨rest, ?_, ?_⟩
    · exact List.pairwise_map.mpr (List.pairwise_of_forall fun _ _ => ⟨Nat.le_refl _, Nat.le_succ _⟩)
    · intro e later e' child
      obtain ⟨c, _, rfl⟩ := List.mem_map.mp child
      have near := first e later
      dsimp only at near ⊢
      omega
  covered m left k path := by
    obtain ⟨other, still⟩ := distinct.mem_erase_iff.mp left
    obtain ⟨e, member, j, way, short⟩ := waiting.covered m still k path
    have late : rank ≤ e.2 := by
      rcases List.mem_cons.mp member with rfl | later
      · exact Nat.le_refl _
      · exact ((List.pairwise_cons.mp waiting.ordered).1 e later).1
    rcases way.erase other with whole | ⟨c, i, child, tail, shorter⟩
    · rcases List.mem_cons.mp member with rfl | later
      · exact absurd rfl (distinct.mem_erase_iff.mp whole.start).1
      · exact ⟨e, List.mem_append_left _ later, j, whole, short⟩
    · refine ⟨(c, rank + 1), List.mem_append_right _ (List.mem_map_of_mem child), i, tail, ?_⟩
      dsimp only
      omega

end Waiting

/-- The node stands in the rank. -/
def Placed (ranks : List (List Nat)) (n rank : Nat) : Prop :=
  ∃ row, ranks[rank]? = some row ∧ n ∈ row

theorem addToRank_placed (ranks : List (List Nat)) (rank n : Nat) :
    Placed (addToRank ranks rank n) n rank := by
  fun_induction addToRank ranks rank n with
  | case1 n => exact ⟨[n], rfl, List.mem_cons_self⟩
  | case2 rank n ih => exact ih
  | case3 row ranks n => exact ⟨row ++ [n], rfl, List.mem_append_right _ List.mem_cons_self⟩
  | case4 row ranks rank n ih => exact ih

theorem Placed.addToRank {ranks : List (List Nat)} {m i : Nat} (placed : Placed ranks m i)
    (rank n : Nat) : Placed (addToRank ranks rank n) m i := by
  fun_induction Graph.addToRank ranks rank n generalizing i with
  | case1 | case2 =>
    obtain ⟨row, found, _⟩ := placed
    cases found
  | case3 row ranks n =>
    obtain ⟨own, found, member⟩ := placed
    cases i with
    | zero =>
      obtain rfl := Option.some.inj found
      exact ⟨_, rfl, List.mem_append_left _ member⟩
    | succ i => exact ⟨own, found, member⟩
  | case4 row ranks rank n ih =>
    cases i with
    | zero => exact placed
    | succ i => exact ih placed

theorem Placed.search {r : Ranking} {m i : Nat} (placed : Placed r.ranks m i)
    (queue : List (Nat × Nat)) : Placed (g.search r queue).ranks m i := by
  fun_induction Graph.search g r queue with
  | case1 r => exact placed
  | case2 r n rank queue unranked ih => exact ih (placed.addToRank rank n)
  | case3 r n rank queue ranked ih => exact ih placed

/-- A search ranks what its seed reaches, each node by its distance. -/
theorem search_distance {r : Ranking} {queue : List (Nat × Nat)} {seed : Nat}
    (waiting : g.Waiting seed r.unranked queue) (distinct : r.unranked.Nodup)
    (inside : ∀ m ∈ r.unranked, m < g.size) :
    (∀ m ∈ (g.search r queue).unranked, ¬ g.Reaches seed m) ∧
    ∀ m ∈ r.unranked, m ∉ (g.search r queue).unranked →
      ∃ k, IsLeast {k | g.Path seed m k} k ∧ Placed (g.search r queue).ranks m k := by
  fun_induction Graph.search g r queue with
  | case1 r =>
    refine ⟨fun m free reached => ?_, fun m free ranked => absurd free ranked⟩
    obtain ⟨k, path⟩ := reached
    obtain ⟨e, member, _⟩ := waiting.covered m free k path
    cases member
  | case2 r n rank queue free ih =>
    obtain ⟨unreached, placed⟩ := ih (waiting.expand free distinct inside) (distinct.erase n)
      fun m left => inside m (List.mem_of_mem_erase left)
    refine ⟨unreached, fun m still ranked => ?_⟩
    by_cases same : m = n
    · subst same
      exact ⟨rank, waiting.distance free, (addToRank_placed _ _ _).search _⟩
    · exact placed m ((List.mem_erase_of_ne same).mpr still) ranked
  | case3 r n rank queue ranked ih => exact ih (waiting.skip ranked) distinct inside

/-! ### All searches -/

theorem Closed.search {r : Ranking} (closed : g.Closed r.unranked) {seed : Nat}
    (node : seed < g.size) (distinct : r.unranked.Nodup) (inside : ∀ m ∈ r.unranked, m < g.size) :
    g.Closed (g.search r [(seed, 0)]).unranked := by
  obtain ⟨unreached, placed⟩ := search_distance (closed.waiting node) distinct inside
  intro a b edge known ranked left
  have free := (g.search_sublist r [(seed, 0)]).subset left
  by_cases new : a ∈ r.unranked
  · obtain ⟨k, ⟨path, _⟩, _⟩ := placed a new ranked
    exact unreached b left ⟨k + 1, path.snoc edge (inside b free)⟩
  · exact closed a b edge known new free

theorem foldl_search_distance {seeds : List Nat} (nodes : ∀ s ∈ seeds, s < g.size) {r : Ranking}
    (closed : g.Closed r.unranked) (distinct : r.unranked.Nodup)
    (inside : ∀ m ∈ r.unranked, m < g.size) :
    let last := seeds.foldl (fun r n => g.search r [(n, 0)]) r
    (∀ m i, Placed r.ranks m i → Placed last.ranks m i) ∧
    ∀ m ∈ r.unranked, m ∉ last.unranked → ∃ s k, g.FirstReaching seeds s m ∧
      IsLeast {k | g.Path s m k} k ∧ Placed last.ranks m k := by
  induction seeds generalizing r with
  | nil => exact ⟨fun m i placed => placed, fun m free ranked => absurd free ranked⟩
  | cons seed rest ih =>
    obtain ⟨node, others⟩ := List.forall_mem_cons.mp nodes
    obtain ⟨unreached, here⟩ := search_distance (closed.waiting node) distinct inside
    have fewer := g.search_sublist r [(seed, 0)]
    obtain ⟨kept, later⟩ := ih others (closed.search node distinct inside) (distinct.sublist fewer)
      fun m left => inside m (fewer.subset left)
    refine ⟨fun m i placed => kept m i (placed.search _), fun m free ranked => ?_⟩
    by_cases left : m ∈ (g.search r [(seed, 0)]).unranked
    · obtain ⟨s, k, ⟨before, after, split, none, reaches⟩, least, placed⟩ := later m left ranked
      refine ⟨s, k, ⟨seed :: before, after, by rw [split, List.cons_append], ?_, reaches⟩, least,
        placed⟩
      exact List.forall_mem_cons.mpr ⟨unreached m left, none⟩
    · obtain ⟨k, least, placed⟩ := here m free left
      exact ⟨seed, k, ⟨[], rest, rfl, by simp, k, least.1⟩, least, kept m k placed⟩

/-- Each node has its place in one rank, which is its distance from the first seed that reaches it; the
seeds are the nodes into which no edge leads and then all nodes. No rank is empty. -/
theorem ranks_distance (g : Graph) :
    let sources := (List.range g.size).filter fun n => ∀ e ∈ g.edges, e.2 ≠ n
    g.ranks.flatten.Perm (List.range g.size) ∧ [] ∉ g.ranks ∧
    ∀ n < g.size, ∃ s k, g.FirstReaching (sources ++ List.range g.size) s n ∧
      IsLeast {k | g.Path s n k} k ∧ Placed g.ranks n k := by
  intro sources
  refine ⟨g.ranks_perm, g.ranks_filled, fun n node => ?_⟩
  have roots : g.roots = sources := by
    refine List.filter_congr fun n _ => ?_
    rw [Bool.eq_iff_iff]
    simp
  have nodes : ∀ s ∈ g.roots ++ g.nodes, s < g.size := by
    intro s member
    rcases List.mem_append.mp member with root | node
    · exact List.mem_range.mp (List.mem_filter.mp root).1
    · exact List.mem_range.mp node
  have inside : ∀ m ∈ g.nodes, m < g.size := fun m member => List.mem_range.mp member
  have closed : g.Closed g.nodes := fun a b _ known ranked =>
    absurd (List.mem_range.mpr known) ranked
  obtain ⟨_, placed⟩ := foldl_search_distance (r := { unranked := g.nodes }) nodes closed
    List.nodup_range inside
  obtain ⟨_, ranked, _⟩ := g.foldl_search (g.roots ++ g.nodes) { unranked := g.nodes }
    List.nodup_range (by simp)
  have member : n ∈ g.nodes := List.mem_range.mpr node
  obtain ⟨s, k, first, least, found⟩ :=
    placed n member (ranked n (List.mem_append_right _ member))
  rw [roots] at first
  exact ⟨s, k, first, least, found⟩

/-- Nothing leads to 3 and 5; 2 leads to itself only, and 0 and 1 to each other. -/
example : ranks ⟨6, [(0, 1), (1, 0), (2, 2), (3, 4), (3, 4), (4, 1)]⟩ =
    [[3, 5, 2], [4], [1], [0]] := by
  cbv

end Graph

end Storyboard
