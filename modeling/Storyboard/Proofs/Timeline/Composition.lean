import Storyboard.Proofs.OrderedMap
import Storyboard.Proofs.Timeline.Targets

/-!
# Timelines put together

What a diagram compiles to depends on its groups of steps and not on how they are interleaved, and
groups that come later leave what the earlier ones compile to in front (`compile_composes`).
-/

namespace Storyboard

namespace Diagram

section

variable {T : Type}

/-! ### Groups -/

/-- Steps sorted by the first appearances of their numbers. Those that share a number stay in their
order. -/
def regrouped (steps : List (Step T)) : List (Step T) :=
  let numbers := steps.map Step.number
  steps.mergeSort fun a b => numbers.idxOf a.number ≤ numbers.idxOf b.number

theorem regrouped_perm (steps : List (Step T)) : (regrouped steps).Perm steps :=
  List.mergeSort_perm _ _

theorem regrouped_filter (steps : List (Step T)) (n : Nat) :
    (regrouped steps).filter (fun s => s.number == n) = steps.filter (fun s => s.number == n) := by
  refine filter_mergeSort_of_tied (decide_le_trans _) (decide_le_total _) ?_ steps
  intro a b first second
  rw [eq_of_beq first, eq_of_beq second]
  exact decide_eq_true (le_refl _)

theorem regrouped_numbers (steps : List (Step T)) :
    ((regrouped steps).map Step.number).eraseDups = (steps.map Step.number).eraseDups := by
  have sorted : ((regrouped steps).map Step.number).Pairwise fun a b =>
      (steps.map Step.number).idxOf a ≤ (steps.map Step.number).idxOf b := by
    let place (s : Step T) := (steps.map Step.number).idxOf s.number
    have sorted := List.pairwise_mergeSort (decide_le_trans place) (decide_le_total place) steps
    exact List.pairwise_map.mpr (sorted.imp of_decide_eq_true)
  have perm : ((regrouped steps).map Step.number).eraseDups.Perm
      (steps.map Step.number).eraseDups := by
    refine (List.perm_ext_iff_of_nodup (eraseDups_nodup _) (eraseDups_nodup _)).mpr fun n => ?_
    rw [List.mem_eraseDups, List.mem_eraseDups]
    exact ((regrouped_perm steps).map Step.number).mem_iff
  have ordered : (steps.map Step.number).eraseDups.Pairwise fun a b =>
      (steps.map Step.number).idxOf a ≤ (steps.map Step.number).idxOf b :=
    (eraseDups_pairwise_idxOf _).imp le_of_lt
  refine perm.eq_of_pairwise ?_ (sorted.sublist (eraseDups_sublist _)) ordered
  intro a b _ member before after
  exact ((List.idxOf_inj (List.mem_eraseDups.mp member)).mp (le_antisymm after before)).symm

theorem groups_regrouped (steps : List (Step T)) : groups (regrouped steps) = groups steps := by
  rw [groups, regrouped_numbers]
  exact List.map_congr_left fun n _ => congrArg (Prod.mk n) (regrouped_filter steps n)

/-- Steps of other numbers make groups of their own. -/
theorem groups_append {first later : List (Step T)}
    (apart : ∀ s ∈ first, ∀ t ∈ later, s.number ≠ t.number) :
    groups (first ++ later) = groups first ++ groups later := by
  have others : (later.map Step.number).removeAll (first.map Step.number) =
      later.map Step.number := by
    refine List.filter_eq_self.mpr fun n member => ?_
    obtain ⟨t, inside, rfl⟩ := List.mem_map.mp member
    simpa using fun s old => apart s old t inside
  have none {ss ts : List (Step T)} (apart : ∀ s ∈ ss, ∀ t ∈ ts, s.number ≠ t.number) {n : Nat}
      (member : n ∈ (ss.map Step.number).eraseDups) : ts.filter (fun t => t.number == n) = [] := by
    obtain ⟨s, inside, rfl⟩ := List.mem_map.mp (List.mem_eraseDups.mp member)
    refine List.filter_eq_nil_iff.mpr fun t other => ?_
    simpa using (apart s inside t other).symm
  simp only [groups, List.map_append, List.eraseDups_append, others, List.filter_append]
  congr 1
  · refine List.map_congr_left fun n member => ?_
    rw [none apart member, List.append_nil]
  · refine List.map_congr_left fun n member => ?_
    rw [none (fun t inside s old => (apart s old t inside).symm) member, List.nil_append]

end

/-! ### Compiling groups -/

/-- The diagram with other steps. -/
def withSteps {T G : Type} (d : Diagram T G) (steps : List (Step T)) : Diagram T G := { d with steps }

section

variable {T G : Type} [Scalar T] [Scalar G] [Narrow T G] (d : Diagram T G) (o : CompileOptions G)

omit [Scalar T] [Narrow T G] in
theorem initialStates_regrouped :
    (d.withSteps (regrouped d.steps)).initialStates o = d.initialStates o := by
  have shown : ∀ id, (d.withSteps (regrouped d.steps)).shownNodes.contains id =
      d.shownNodes.contains id := by
    intro id
    have perm := (((regrouped_perm d.steps).filter (fun s => s.action == .reveal)).flatMap_right
      d.nodeTargets).mem_iff (a := id)
    rw [Bool.eq_iff_iff, List.contains_iff_mem, List.contains_iff_mem]
    exact perm
  unfold initialStates
  simp only [shown]
  rfl

omit [Scalar T] [Narrow T G] in
/-- Further steps hide the nodes that they show, before the first cue. -/
theorem initialStates_append (first later : List (Step T)) :
    ((d.withSteps (first ++ later)).initialStates o).entries =
      ((d.withSteps first).initialStates o).entries.map fun e =>
        (e.1, if (d.withSteps later).shownNodes.contains e.1 then
          { e.2 with opacity := 0 } else e.2) := by
  have shown : (d.withSteps (first ++ later)).shownNodes =
      (d.withSteps first).shownNodes ++ (d.withSteps later).shownNodes := by
    rw [shownNodes, withSteps, List.filter_append, List.flatMap_append]
    rfl
  have nodes (id : String) :
      Appearance.ofNode (!(d.withSteps (first ++ later)).shownNodes.contains id) (d.baseColor o id) =
        if (d.withSteps later).shownNodes.contains id then
          { Appearance.ofNode (!(d.withSteps first).shownNodes.contains id) (d.baseColor o id) with
            opacity := 0 }
        else Appearance.ofNode (!(d.withSteps first).shownNodes.contains id) (d.baseColor o id) := by
    rw [shown, List.contains_append]
    cases (d.withSteps later).shownNodes.contains id with
    | true => simp [Appearance.ofNode]
    | false => simp
  have edges (id : String) : Appearance.ofEdge o.edgeStroke =
      if (d.withSteps later).shownNodes.contains id then
        { Appearance.ofEdge o.edgeStroke with opacity := 0 }
      else Appearance.ofEdge o.edgeStroke := by
    split <;> rfl
  rw [initialStates, initialStates, ← OrderedMap.entries_ofList_map fun id (a : Appearance G) =>
    if (d.withSteps later).shownNodes.contains id then { a with opacity := 0 } else a]
  refine congrArg (fun entries => (OrderedMap.ofList entries).entries) ?_
  rw [List.map_append, List.map_map, List.map_map]
  refine congrArg₂ (· ++ ·) ?_ ?_
  · exact List.map_congr_left fun id _ => congrArg (Prod.mk id) (nodes id)
  · exact List.map_congr_left fun id _ => congrArg (Prod.mk id) (edges id)

theorem schedule_baseColors_prefix (known : OrderedMap String (Color G)) (s : Step T) (start : T) :
    known.entries <+: (d.schedule o known s start).baseColors.entries := by
  rw [schedule_baseColors]
  split
  · exact OrderedMap.entries_foldl_insertNew _ _ _
  · exact List.prefix_rfl

theorem compileGroup_baseColors_prefix (c : Compiled T G) (group : Nat × List (Step T)) :
    c.baseColors.entries <+: (d.compileGroup o c group).baseColors.entries := by
  have steps : ∀ (steps : List (Step T)) (start : T) (c : Compiled T G),
      c.baseColors.entries <+: (steps.foldl (d.compileStep o start) c).baseColors.entries := by
    intro steps start
    induction steps with
    | nil => exact fun c => List.prefix_rfl
    | cons s rest ih =>
      exact fun c => (d.schedule_baseColors_prefix o c.baseColors s start).trans
        (ih (d.compileStep o start c s))
  exact steps group.2 c.cursor
    { c with cues := c.cues ++ [.of (.step group.1) c.cursor (Scalar.ofNat 0) .linear] }

end

variable {T G : Type} [ExactScalar T] [Scalar G] [Narrow T G]

/-- What further groups add to what has been compiled: it comes after what there is, and its cues do
not start before the cursor. -/
structure Compiled.Continues (before after : Compiled T G) : Prop where
  forward : before.cursor ≤ after.cursor
  cues : ∃ cues, after.cues = before.cues ++ cues ∧ ∀ cue ∈ cues, before.cursor ≤ cue.start
  boundaries : before.boundaries <+: after.boundaries
  baseColors : before.baseColors.entries <+: after.baseColors.entries

omit [Scalar G] [Narrow T G] in
theorem Compiled.Continues.trans {first second third : Compiled T G} (h : first.Continues second)
    (h' : second.Continues third) : first.Continues third := by
  obtain ⟨cues, added, late⟩ := h.cues
  obtain ⟨cues', added', late'⟩ := h'.cues
  refine ⟨h.forward.trans h'.forward, ⟨cues ++ cues', ?_, ?_⟩, h.boundaries.trans h'.boundaries,
    h.baseColors.trans h'.baseColors⟩
  · rw [added', added, List.append_assoc]
  · intro cue member
    rcases List.mem_append.mp member with old | new
    · exact late cue old
    · exact h.forward.trans (late' cue new)

variable (d : Diagram T G) (o : CompileOptions G)

theorem compileGroup_continues (c : Compiled T G) (group : Nat × List (Step T)) :
    c.Continues (d.compileGroup o c group) := by
  obtain ⟨cues, boundaries, forward, added, within, _⟩ := d.compileGroup_extends o c group
  exact ⟨forward, ⟨cues, added, fun cue member => (within cue member).1⟩,
    boundaries ▸ List.prefix_append _ _, d.compileGroup_baseColors_prefix o c group⟩

theorem foldl_compileGroup_continues (groups : List (Nat × List (Step T))) (c : Compiled T G) :
    c.Continues (groups.foldl (d.compileGroup o) c) := by
  induction groups generalizing c with
  | nil =>
    exact ⟨le_refl _, ⟨[], (List.append_nil _).symm, by simp⟩, List.prefix_rfl, List.prefix_rfl⟩
  | cons group rest ih => exact (d.compileGroup_continues o c group).trans (ih _)

omit [Scalar G] [Narrow T G] in
theorem sorted_prefix {before after : Compiled T G} (h : before.Continues after)
    (fits : before.Fits) :
    before.cues.mergeSort (fun a b => decide (a.start ≤ b.start)) <+:
      after.cues.mergeSort (fun a b => decide (a.start ≤ b.start)) := by
  obtain ⟨cues, added, late⟩ := h.cues
  rw [added, mergeSort_append (decide_le_trans Cue.start) (decide_le_total Cue.start)]
  · exact List.prefix_append _ _
  · intro a old b new
    have within := fits.within a old
    exact decide_eq_true ((within.forward.trans within.2.2).trans (late b new))

theorem compiled_fits (steps : List (Step T)) :
    ((groups steps).foldl (d.compileGroup o) { cursor := (Scalar.ofNat 0 : T) }).Fits := by
  refine d.foldl_compileGroup_fits o _ ⟨?_, by simp, .inl ExactScalar.zero_eq⟩
  rw [ExactScalar.ofNat_eq, Nat.cast_zero]
  exact .nil

/-- Steps compile as if those of one number stood together, in the order of first appearance. Steps
that follow and have other numbers keep the boundaries, the cues and the base colors that there
were in front; only the nodes that they show now start hidden. -/
theorem compile_composes :
    (∀ (T G : Type) [Scalar T] [Scalar G] [Narrow T G] (d : Diagram T G) (o : CompileOptions G),
      (d.withSteps (regrouped d.steps)).compile o = d.compile o) ∧
    (∀ (T G : Type) [ExactScalar T] [Scalar G] [Narrow T G] (d : Diagram T G)
      (o : CompileOptions G) (first later : List (Step T)),
      (∀ s ∈ first, ∀ t ∈ later, s.number ≠ t.number) →
      let t := (d.withSteps first).compile o
      let t' := (d.withSteps (first ++ later)).compile o
      t.boundaries <+: t'.boundaries ∧ t.cues <+: t'.cues ∧
      t.baseColors.entries <+: t'.baseColors.entries ∧
      t'.initial.entries = t.initial.entries.map fun e =>
        (e.1, if (d.withSteps later).shownNodes.contains e.1 then
          { e.2 with opacity := 0 } else e.2)) := by
  constructor
  · intro T G _ _ _ d o
    have groups : groups (d.withSteps (regrouped d.steps)).steps = groups d.steps :=
      groups_regrouped d.steps
    rw [compile, compile, initialStates_regrouped, groups]
    rfl
  · intro T G _ _ _ d o first later apart
    have fits := d.compiled_fits o first
    have continues := d.foldl_compileGroup_continues o (groups later)
      ((groups first).foldl (d.compileGroup o) { cursor := (Scalar.ofNat 0 : T) })
    rw [← List.foldl_append, ← groups_append apart] at continues
    exact ⟨continues.boundaries, sorted_prefix continues fits, continues.baseColors,
      d.initialStates_append o first later⟩

/-- Two nodes without steps. -/
def couple : Diagram Rat Rat where
  nodes := [{ id := "A", label := "A" }, { id := "B", label := "B" }]

theorem couple_composes :
    let first : List (Step Rat) :=
      [{ number := 2, action := .highlight, targets := [.entity "B"]
         properties := ⟨[("delay", .number 3)]⟩ },
        { number := 2, action := .reveal, targets := [.entity "A"] }]
    let later : List (Step Rat) :=
      [{ number := 1, action := .reveal, targets := [.entity "B"] },
        { number := 1, action := .highlight, targets := [.entity "A"] }]
    let t := (couple.withSteps first).compile .standard
    let t' := (couple.withSteps (first ++ later)).compile .standard
    (∀ s ∈ first, ∀ s' ∈ later, s.number ≠ s'.number) ∧ t.boundaries <+: t'.boundaries ∧
    t.cues <+: t'.cues ∧ t.baseColors.entries <+: t'.baseColors.entries ∧
    t.boundaries = [⟨2, 0, 4⟩] ∧ t.baseColors.keys = ["B"] ∧ t'.baseColors.keys = ["B", "A"] ∧
    t.initial.values.map Appearance.opacity = [0, 1] ∧
    t'.initial.entries.map (fun e => e.2.opacity) = [0, 0] := by
  intro first later t t'
  have apart : ∀ s ∈ first, ∀ s' ∈ later, s.number ≠ s'.number := by decide
  obtain ⟨boundaries, cues, baseColors, initial⟩ :=
    compile_composes.2 Rat Rat couple .standard first later apart
  refine ⟨apart, boundaries, cues, baseColors, by decide +kernel, by decide +kernel,
    by decide +kernel, by decide +kernel, ?_⟩
  rw [initial]
  decide +kernel

end Diagram

end Storyboard
