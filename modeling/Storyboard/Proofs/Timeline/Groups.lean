import Mathlib.Order.Bounds.Basic
import Storyboard.Proofs.Lists
import Storyboard.Proofs.Playback.Clock

/-!
# Groups of steps

`Diagram.made` lists the cues of a diagram in the order in which they are made, and
`Diagram.groupCues` those made for one group. Each group takes up one boundary, which starts with
the group and ends with the last of its cues, and playing order is the order in which cues are made,
sorted by their starts.
-/

namespace Storyboard

/-! ### Tables of boundaries -/

variable {T G : Type} [ExactScalar T]

/-- The boundaries follow on one another from zero to the end of the timeline. -/
structure Timeline.Contiguous (t : Timeline T G) : Prop where
  first : ∀ b, t.boundaries[0]? = some b → b.start = 0
  next : ∀ i b c, t.boundaries[i]? = some b → t.boundaries[i + 1]? = some c → c.start = b.stop
  forward : ∀ b ∈ t.boundaries, b.start ≤ b.stop
  last : ∀ b, t.boundaries.getLast? = some b → b.stop = t.duration
  none : t.boundaries = [] → t.duration = 0

/-- The cues are those made, sorted by their starts; those that start together are in the order in
which they were made. -/
structure Timeline.Plays (t : Timeline T G) (made : List (Cue T G)) : Prop where
  perm : t.cues.Perm made
  sorted : t.cues.Pairwise (fun a b => a.start ≤ b.start)
  ties : ∀ time, t.cues.filter (fun c => c.start = time) = made.filter (fun c => c.start = time)

/-- The cues lie within the boundary, which ends with the last of them. -/
structure Boundary.Spans (b : Boundary T) (cues : List (Cue T G)) : Prop where
  within : ∀ c ∈ cues, b.start ≤ c.start ∧ c.stop ≤ b.stop
  stop : IsGreatest ({b.start} ∪ {time | ∃ c ∈ cues, c.stop = time}) b.stop

theorem Timeline.Tiled.contiguous {t : Timeline T G} (h : t.Tiled) : t.Contiguous := by
  refine ⟨fun b found => Tiling.first_start h found, ?_, ?_, ?_, ?_⟩
  · intro i b c found next
    exact Tiling.next_start h found next
  · intro b member
    obtain ⟨i, found⟩ := List.getElem?_of_mem member
    exact (Tiling.bounds h found).2.1
  · intro b last
    simp [duration, last]
  · intro empty
    exact Tiling.stop_of_nil h empty

namespace Diagram

variable [Scalar G] [Narrow T G]

/-! ### Group by group -/

/-- What the first groups compile to. -/
def compiledGroups (d : Diagram T G) (o : CompileOptions G) (n : Nat) : Compiled T G :=
  ((groups d.steps).take n).foldl (d.compileGroup o) { cursor := (Scalar.ofNat 0 : T) }

/-- The cues in the order in which they are made. -/
def made (d : Diagram T G) (o : CompileOptions G) : List (Cue T G) :=
  ((groups d.steps).foldl (d.compileGroup o) { cursor := (Scalar.ofNat 0 : T) }).cues

/-- The cues made for the group at an index. -/
def groupCues (d : Diagram T G) (o : CompileOptions G) (i : Nat) : List (Cue T G) :=
  (d.compiledGroups o (i + 1)).cues.drop (d.compiledGroups o i).cues.length

variable {d : Diagram T G} {o : CompileOptions G} {i : Nat}

theorem compiledGroups_succ {group : Nat × List (Step T)} (found : (groups d.steps)[i]? = some group) :
    d.compiledGroups o (i + 1) = d.compileGroup o (d.compiledGroups o i) group := by
  simp [compiledGroups, List.take_add_one, found]

theorem compiledGroups_of_none (absent : (groups d.steps)[i]? = none) :
    d.compiledGroups o (i + 1) = d.compiledGroups o i := by
  simp [compiledGroups, List.take_add_one, absent]

theorem groupCues_extends (d : Diagram T G) (o : CompileOptions G) (i : Nat) :
    (d.compiledGroups o (i + 1)).cues = (d.compiledGroups o i).cues ++ d.groupCues o i := by
  unfold groupCues
  cases found : (groups d.steps)[i]? with
  | none => simp [compiledGroups_of_none found]
  | some group =>
    obtain ⟨cues, _, _, added, _⟩ := d.compileGroup_extends o (d.compiledGroups o i) group
    rw [← compiledGroups_succ found] at added
    rw [added, List.drop_left]

theorem compiledGroups_cues (d : Diagram T G) (o : CompileOptions G) (n : Nat) :
    (d.compiledGroups o n).cues = (List.range n).flatMap (d.groupCues o) := by
  induction n with
  | zero => simp [compiledGroups]
  | succ n ih => simp [groupCues_extends, ih, List.range_succ]

theorem compiledGroups_boundaries (d : Diagram T G) (o : CompileOptions G) (n : Nat) :
    (d.compiledGroups o n).boundaries = ((groups d.steps).take n).mapIdx fun i group =>
      ⟨group.1, (d.compiledGroups o i).cursor, (d.compiledGroups o (i + 1)).cursor⟩ := by
  induction n with
  | zero => simp [compiledGroups]
  | succ n ih =>
    rw [List.take_add_one]
    cases found : (groups d.steps)[n]? with
    | none => simp [compiledGroups_of_none found, ih]
    | some group =>
      obtain ⟨_, boundaries, _⟩ := d.compileGroup_extends o (d.compiledGroups o n) group
      have inside := (List.getElem?_eq_some_iff.mp found).1
      have length : ((groups d.steps).take n).length = n := by
        rw [List.length_take]
        omega
      rw [← compiledGroups_succ found] at boundaries
      rw [boundaries, ih, Option.toList_some, List.mapIdx_append, length]
      simp

theorem compile_boundaries (d : Diagram T G) (o : CompileOptions G) :
    (d.compile o).boundaries = (groups d.steps).mapIdx fun i group =>
      ⟨group.1, (d.compiledGroups o i).cursor, (d.compiledGroups o (i + 1)).cursor⟩ := by
  have all := d.compiledGroups_boundaries o (groups d.steps).length
  rw [List.take_length] at all
  rw [← all, compiledGroups, List.take_length]
  rfl

theorem compile_steps (d : Diagram T G) (o : CompileOptions G) :
    (d.compile o).boundaries.map Boundary.step = (d.steps.map Step.number).eraseDups := by
  rw [compile_boundaries]
  apply List.ext_getElem?
  intro i
  simp only [groups, List.getElem?_map, List.getElem?_mapIdx, Option.map_map]
  exact congrFun Option.map_id _

theorem made_groups (d : Diagram T G) (o : CompileOptions G) :
    d.made o = (List.range (d.compile o).boundaries.length).flatMap (d.groupCues o) := by
  rw [compile_boundaries, List.length_mapIdx, ← compiledGroups_cues, compiledGroups,
    List.take_length]
  rfl

theorem compile_plays (d : Diagram T G) (o : CompileOptions G) : (d.compile o).Plays (d.made o) := by
  have trans := decide_le_trans (Cue.start : Cue T G → T)
  have total := decide_le_total (Cue.start : Cue T G → T)
  refine ⟨List.mergeSort_perm _ _, ?_, ?_⟩
  · have sorted := List.pairwise_mergeSort trans total (d.made o)
    exact sorted.imp of_decide_eq_true
  · intro time
    refine filter_mergeSort_of_tied trans total ?_ (d.made o)
    simp only [decide_eq_true_eq]
    rintro a b rfl same
    exact same.ge

theorem groupCues_spanned {b : Boundary T} (found : (d.compile o).boundaries[i]? = some b) :
    b.Spans (d.groupCues o i) := by
  rw [compile_boundaries, List.getElem?_mapIdx] at found
  obtain ⟨group, at_, rfl⟩ := Option.map_eq_some_iff.mp found
  obtain ⟨cues, _, forward, added, within, last, member, ends⟩ :=
    d.compileGroup_extends o (d.compiledGroups o i) group
  rw [← compiledGroups_succ at_] at forward added within ends
  have same : cues = d.groupCues o i := by rw [groupCues, added, List.drop_left]
  subst same
  refine ⟨fun c inside => ⟨(within c inside).1, (within c inside).2.2⟩, ?_, ?_⟩
  · exact .inr ⟨last, member, ends⟩
  · rintro time (rfl | ⟨c, inside, rfl⟩)
    · exact forward
    · exact (within c inside).2.2

/-- A compiled timeline has one boundary for each step number, in the order of first appearance, and
the boundaries tile it. It plays the cues that were made for its groups, each within its boundary,
and a clock that takes it over is as long as it is. -/
theorem compile_scheduled (d : Diagram T G) (o : CompileOptions G) (clock : Clock T G) :
    let t := d.compile o
    let numbers := d.steps.map Step.number
    (∀ n, n ∈ t.boundaries.map Boundary.step ↔ n ∈ numbers) ∧
    (t.boundaries.map Boundary.step).Pairwise (fun a b => numbers.idxOf a < numbers.idxOf b) ∧
    t.Contiguous ∧
    d.made o = (List.range t.boundaries.length).flatMap (d.groupCues o) ∧
    t.Plays (d.made o) ∧
    (∀ i (b : Boundary T), t.boundaries[i]? = some b → b.Spans (d.groupCues o i)) ∧
    (clock.install t).duration = t.duration := by
  intro t numbers
  have steps : t.boundaries.map Boundary.step = numbers.eraseDups := d.compile_steps o
  refine ⟨?_, ?_, ?_, d.made_groups o, d.compile_plays o, ?_, clock.install_duration d o⟩
  · intro n
    rw [steps]
    exact List.mem_eraseDups
  · rw [steps]
    exact eraseDups_pairwise_idxOf numbers
  · exact (d.compile_tiled o).contiguous
  · intro i b found
    exact groupCues_spanned found

end Diagram

end Storyboard
