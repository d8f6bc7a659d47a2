import Storyboard.Proofs.Lists
import Storyboard.Proofs.Number.Exact
import Storyboard.Timeline.Basic

/-!
# Tilings

Boundaries tile a stretch of time if the first starts at zero and each starts where the one before
it stops. The boundary that is looked up for a time is one that holds the time.
-/

namespace Storyboard

variable {T : Type} [ExactScalar T]

/-- Boundaries that follow on one another from zero up to a time. -/
inductive Tiling : List (Boundary T) → T → Prop where
  | nil : Tiling [] 0
  | snoc {bs : List (Boundary T)} {start stop : T} (h : Tiling bs start) (step : Nat)
      (ordered : start ≤ stop) : Tiling (bs ++ [⟨step, start, stop⟩]) stop

namespace Tiling

variable {bs : List (Boundary T)} {stop : T} {i : Nat} {b : Boundary T}

theorem nonneg (h : Tiling bs stop) : 0 ≤ stop := by
  induction h with
  | nil => exact le_refl 0
  | snoc _ _ ordered ih => exact ih.trans ordered

theorem bounds (h : Tiling bs stop) (found : bs[i]? = some b) :
    0 ≤ b.start ∧ b.start ≤ b.stop ∧ b.stop ≤ stop := by
  induction h with
  | nil => cases found
  | snoc h step ordered ih =>
    rcases getElem?_snoc_cases found with older | ⟨_, rfl⟩
    · obtain ⟨positive, forward, within⟩ := ih older
      exact ⟨positive, forward, within.trans ordered⟩
    · exact ⟨h.nonneg, ordered, le_refl _⟩

theorem stop_of_nil (h : Tiling bs stop) (empty : bs = []) : stop = 0 := by
  cases h with
  | nil => rfl
  | snoc => simp at empty

theorem first_start (h : Tiling bs stop) (found : bs[0]? = some b) : b.start = 0 := by
  induction h with
  | nil => cases found
  | snoc h step ordered ih =>
    rcases getElem?_snoc_cases found with older | ⟨first, rfl⟩
    · exact ih older
    · exact h.stop_of_nil (List.length_eq_zero_iff.mp first.symm)

theorem last_stop (h : Tiling bs stop) (found : bs[i]? = some b) (last : bs[i + 1]? = none) :
    b.stop = stop := by
  cases h with
  | nil => cases found
  | snoc h step ordered =>
    rcases getElem?_snoc_cases found with older | ⟨_, rfl⟩
    · obtain ⟨inside, _⟩ := List.getElem?_eq_some_iff.mp older
      have short := List.getElem?_eq_none_iff.mp last
      rw [List.length_append, List.length_singleton] at short
      omega
    · rfl

theorem next_start {c : Boundary T} (h : Tiling bs stop) (found : bs[i]? = some b)
    (next : bs[i + 1]? = some c) : c.start = b.stop := by
  induction h with
  | nil => cases found
  | snoc h step ordered ih =>
    rcases getElem?_snoc_cases next with older | ⟨last, rfl⟩
    · rcases getElem?_snoc_cases found with same | ⟨outside, _⟩
      · exact ih same older
      · obtain ⟨inside, _⟩ := List.getElem?_eq_some_iff.mp older
        omega
    · rcases getElem?_snoc_cases found with same | ⟨outside, _⟩
      · exact (h.last_stop same (List.getElem?_eq_none (by omega))).symm
      · omega

/-- Each boundary is over when a later one starts. -/
theorem pairwise (h : Tiling bs stop) : bs.Pairwise fun b c => b.stop ≤ c.start := by
  induction h with
  | nil => exact .nil
  | snoc h step ordered ih =>
    refine List.pairwise_append.mpr ⟨ih, List.pairwise_singleton _ _, fun b member c last => ?_⟩
    obtain rfl := List.mem_singleton.mp last
    obtain ⟨i, found⟩ := List.getElem?_of_mem member
    exact (h.bounds found).2.2

theorem sorted (h : Tiling bs stop) : bs.Pairwise fun b c => b.start ≤ c.start := by
  refine h.pairwise.imp_of_mem fun {b c} member _ parted => ?_
  obtain ⟨i, found⟩ := List.getElem?_of_mem member
  exact (h.bounds found).2.1.trans parted

/-- The last boundary that has started holds the time. -/
theorem latest (h : Tiling bs stop) (present : bs ≠ []) {now : T} (positive : 0 ≤ now)
    (within : now ≤ stop) :
    ∃ last b, (bs.takeWhile (fun b => b.start ≤ now)).length = last + 1 ∧ bs[last]? = some b ∧
      b.start ≤ now ∧ now ≤ b.stop := by
  obtain ⟨last, latest⟩ : ∃ last, (bs.takeWhile (fun b => b.start ≤ now)).length = last + 1 := by
    obtain ⟨first, rest, rfl⟩ := List.exists_cons_of_ne_nil present
    have start : first.start = 0 := h.first_start rfl
    rw [List.takeWhile_cons_of_pos (by simpa [start] using positive)]
    exact ⟨_, rfl⟩
  obtain ⟨b, found, started⟩ := getElem?_of_lt_takeWhile (by rw [latest]; exact Nat.lt_succ_self last)
  refine ⟨last, b, latest, found, of_decide_eq_true started, ?_⟩
  cases next : bs[last + 1]? with
  | none => rwa [h.last_stop found next]
  | some c =>
    rw [← latest] at next
    have ahead := of_getElem?_takeWhile next
    rw [latest] at next
    rw [← h.next_start found next]
    exact (not_le.mp (of_decide_eq_false ahead)).le

end Tiling

namespace Timeline

variable {G : Type}

def Tiled (t : Timeline T G) : Prop := Tiling t.boundaries t.duration

theorem duration_of_tiling {t : Timeline T G} {stop : T} (h : Tiling t.boundaries stop) :
    t.duration = stop := by
  unfold duration
  generalize t.boundaries = bs at h
  cases h with
  | nil => exact ExactScalar.zero_eq
  | snoc => simp

theorem tiled_of_tiling {t : Timeline T G} {stop : T} (h : Tiling t.boundaries stop) :
    t.Tiled := by
  rwa [Tiled, duration_of_tiling h]

variable {t : Timeline T G}

theorem cut_mem (h : t.Tiled) (time : T) : 0 ≤ t.cut time ∧ t.cut time ≤ t.duration := by
  have clamped := ExactScalar.clamp_mem time (Tiling.nonneg h)
  unfold cut
  rwa [ExactScalar.zero_eq]

theorem cut_of_mem {time : T} (positive : 0 ≤ time) (within : time ≤ t.duration) :
    t.cut time = time := by
  unfold cut
  rw [ExactScalar.zero_eq]
  exact ExactScalar.clamp_of_mem positive within

theorem le_cut {time early : T} (before : early ≤ time) (within : early ≤ t.duration) :
    early ≤ t.cut time := by
  unfold cut Scalar.clamp
  rw [ExactScalar.zero_eq]
  split
  · next negative => exact before.trans negative.le
  · split
    · exact within
    · exact before

theorem cut_le {time : T} (positive : 0 ≤ time) : t.cut time ≤ time := by
  unfold cut Scalar.clamp
  rw [ExactScalar.zero_eq, if_neg (not_lt.mpr positive)]
  split
  · next after => exact after.le
  · exact le_refl time

/-- The boundary at a time holds the time. -/
theorem boundaryAt?_holds (h : t.Tiled) {time : T} {i : Nat} (found : t.boundaryAt? time = some i) :
    ∃ b, t.boundaries[i]? = some b ∧ b.start ≤ t.cut time ∧ t.cut time ≤ b.stop := by
  obtain ⟨positive, within⟩ := t.cut_mem h time
  by_cases absent : t.boundaries = []
  · simp [boundaryAt?, absent] at found
  rw [boundaryAt?, if_neg (by simpa using absent)] at found
  generalize t.cut time = now at found positive within ⊢
  obtain ⟨last, b, latest, entry, started, going⟩ := Tiling.latest h absent positive within
  dsimp only at found
  rw [latest, Nat.add_sub_cancel] at found
  obtain rfl := Option.some.inj found
  generalize shared : ((t.boundaries.take last).reverse.takeWhile (fun b => b.start == now)).length
    = n
  cases n with
  | zero => exact ⟨b, entry, started, going⟩
  | succ n =>
    -- Of the boundaries that start at the same time, the one looked up is the first.
    have inside : n < ((t.boundaries.take last).reverse.takeWhile (fun b => b.start == now)).length := by
      rw [shared]
      exact Nat.lt_succ_self n
    obtain ⟨c, earlier, same⟩ := getElem?_of_lt_takeWhile inside
    have length : (t.boundaries.take last).length = last := by
      have bound := (List.getElem?_eq_some_iff.mp entry).1
      rw [List.length_take]
      omega
    have within := (List.getElem?_eq_some_iff.mp earlier).1
    rw [List.length_reverse, length] at within
    rw [List.getElem?_reverse (by omega), length, List.getElem?_take_of_lt (by omega)] at earlier
    have start : c.start = now := eq_of_beq same
    refine ⟨c, ?_, start.le, ?_⟩
    · rw [show last - (n + 1) = last - 1 - n by omega]
      exact earlier
    · rw [← start]
      exact (h.bounds earlier).2.1

/-- The beginning belongs to the first boundary, also where that takes no time. -/
theorem boundaryAt?_zero (h : t.Tiled) (present : t.boundaries ≠ []) :
    t.boundaryAt? 0 = some 0 := by
  have cut : t.cut 0 = 0 := cut_of_mem (le_refl 0) (Tiling.nonneg h)
  rw [boundaryAt?, if_neg (by simpa using present), cut]
  dsimp only
  generalize count : (t.boundaries.takeWhile (fun b => b.start ≤ 0)).length = n
  have first : ∀ b ∈ (t.boundaries.take (n - 1)).reverse, (b.start == 0) = true := by
    intro b member
    obtain ⟨i, inside, rfl⟩ := List.mem_take_iff_getElem.mp (List.mem_reverse.mp member)
    have early : i < (t.boundaries.takeWhile (fun b => b.start ≤ 0)).length := by omega
    obtain ⟨b, found, started⟩ := getElem?_of_lt_takeWhile early
    obtain ⟨_, rfl⟩ := List.getElem?_eq_some_iff.mp found
    have same := le_antisymm (of_decide_eq_true started) (Tiling.bounds h found).1
    exact beq_iff_eq.mpr same
  rw [List.takeWhile_eq_self_iff.mpr first, List.length_reverse, List.length_take]
  have bound : n ≤ t.boundaries.length := count ▸ (List.takeWhile_prefix _).length_le
  congr 1
  omega

end Timeline

end Storyboard
