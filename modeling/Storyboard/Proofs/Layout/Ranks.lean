import Storyboard.Layout.Ranks

/-!
# Every node has one rank

A search moves nodes from the unranked ones into ranks, and the node that it starts from is one of
them; so after a search from every node each has its place in one rank (`ranks_perm`). A rank comes
into being with its first node, and never before the rank ahead of it (`ranks_filled`).
-/

namespace Storyboard

namespace Graph

/-! ### One node more -/

theorem addToRank_perm (ranks : List (List Nat)) (rank n : Nat) :
    (addToRank ranks rank n).flatten.Perm (n :: ranks.flatten) := by
  fun_induction addToRank ranks rank n with
  | case1 => simp
  | case2 rank n ih => simpa using ih
  | case3 r ranks n => simp [List.perm_middle]
  | case4 r ranks rank n ih => exact (ih.append_left r).trans List.perm_middle

theorem addToRank_length (ranks : List (List Nat)) (rank n : Nat) :
    (addToRank ranks rank n).length = max ranks.length (rank + 1) := by
  fun_induction addToRank ranks rank n with
  | case1 => rfl
  | case2 rank n ih => simp [ih]
  | case3 r ranks n => simp
  | case4 r ranks rank n ih =>
    simp only [List.length_cons, ih]
    omega

theorem addToRank_filled {ranks : List (List Nat)} (filled : [] ∉ ranks) {rank : Nat}
    (near : rank ≤ ranks.length) (n : Nat) : [] ∉ addToRank ranks rank n := by
  fun_induction addToRank ranks rank n with
  | case1 => simp
  | case2 => simp at near
  | case3 r ranks n => simp_all
  | case4 r ranks rank n ih => simp_all

/-! ### Searches -/

theorem search_perm (g : Graph) (r : Ranking) (queue : List (Nat × Nat)) :
    ((g.search r queue).ranks.flatten ++ (g.search r queue).unranked).Perm
      (r.ranks.flatten ++ r.unranked) := by
  fun_induction search g r queue with
  | case1 r => exact .refl _
  | case2 r n rank queue unranked ih =>
    have moved : (n :: r.ranks.flatten ++ r.unranked.erase n).Perm
        (r.ranks.flatten ++ n :: r.unranked.erase n) := List.perm_middle.symm
    have back := (List.perm_cons_erase unranked).symm.append_left r.ranks.flatten
    exact ih.trans (((addToRank_perm r.ranks rank n).append_right _).trans (moved.trans back))
  | case3 r n rank queue ranked ih => exact ih

theorem search_filled (g : Graph) {r : Ranking} {queue : List (Nat × Nat)}
    (filled : [] ∉ r.ranks) (near : ∀ e ∈ queue, e.2 ≤ r.ranks.length) :
    [] ∉ (g.search r queue).ranks := by
  fun_induction search g r queue with
  | case1 r => exact filled
  | case2 r n rank queue unranked ih =>
    obtain ⟨first, others⟩ := List.forall_mem_cons.mp near
    refine ih (addToRank_filled filled first n) fun e member => ?_
    rw [addToRank_length]
    rcases List.mem_append.mp member with waiting | child
    · exact Nat.le_trans (others e waiting) (Nat.le_max_left _ _)
    · obtain ⟨c, _, rfl⟩ := List.mem_map.mp child
      exact Nat.le_max_right _ _
  | case3 r n rank queue ranked ih => exact ih filled (List.forall_mem_cons.mp near).2

theorem search_sublist (g : Graph) (r : Ranking) (queue : List (Nat × Nat)) :
    (g.search r queue).unranked.Sublist r.unranked := by
  fun_induction search g r queue with
  | case1 r => exact .refl _
  | case2 r m rank queue unranked ih => exact ih.trans List.erase_sublist
  | case3 r m rank queue ranked ih => exact ih

/-- A search ranks the node that it starts from. -/
theorem search_ranks (g : Graph) {r : Ranking} (distinct : r.unranked.Nodup) (n rank : Nat) :
    n ∉ (g.search r [(n, rank)]).unranked := by
  intro left
  rw [search] at left
  split at left
  · have later := (search_sublist _ _ _).subset left
    exact (distinct.mem_erase_iff.mp later).1 rfl
  · rename_i ranked
    exact ranked ((search_sublist _ _ _).subset left)

/-! ### All searches -/

theorem foldl_search (g : Graph) (seeds : List Nat) (r : Ranking) (distinct : r.unranked.Nodup)
    (filled : [] ∉ r.ranks) :
    let last := seeds.foldl (fun r n => g.search r [(n, 0)]) r
    last.unranked.Sublist r.unranked ∧ (∀ n ∈ seeds, n ∉ last.unranked) ∧
      (last.ranks.flatten ++ last.unranked).Perm (r.ranks.flatten ++ r.unranked) ∧
      [] ∉ last.ranks := by
  induction seeds generalizing r with
  | nil => exact ⟨.refl _, by simp, .refl _, filled⟩
  | cons seed rest ih =>
    have fewer := g.search_sublist r [(seed, 0)]
    obtain ⟨sub, ranked, perm, full⟩ := ih (g.search r [(seed, 0)]) (distinct.sublist fewer)
      (g.search_filled filled (by simp))
    refine ⟨sub.trans fewer, ?_, perm.trans (g.search_perm r _), full⟩
    intro n member
    rcases List.mem_cons.mp member with rfl | later
    · exact fun left => g.search_ranks distinct n 0 (sub.subset left)
    · exact ranked n later

theorem ranks_perm (g : Graph) : g.ranks.flatten.Perm g.nodes := by
  obtain ⟨sub, ranked, perm, _⟩ := g.foldl_search (g.roots ++ g.nodes) { unranked := g.nodes }
    List.nodup_range (by simp)
  generalize last : (g.roots ++ g.nodes).foldl (fun r n => g.search r [(n, 0)])
    { unranked := g.nodes } = r at sub ranked perm
  have none : r.unranked = [] := List.eq_nil_iff_forall_not_mem.mpr fun n left =>
    ranked n (List.mem_append_right _ (sub.subset left)) left
  rw [none, List.append_nil] at perm
  have same : g.ranks = r.ranks := congrArg Ranking.ranks last
  rwa [same]

theorem ranks_filled (g : Graph) : [] ∉ g.ranks :=
  (g.foldl_search (g.roots ++ g.nodes) { unranked := g.nodes } List.nodup_range (by simp)).2.2.2

theorem mem_ranks (g : Graph) {n : Nat} (inside : n < g.size) : n ∈ g.ranks.flatten :=
  g.ranks_perm.mem_iff.mpr (List.mem_range.mpr inside)

end Graph

end Storyboard
