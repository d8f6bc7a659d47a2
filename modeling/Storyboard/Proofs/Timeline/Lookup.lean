import Mathlib.Data.Set.Subsingleton
import Storyboard.Proofs.Timeline.Camera
import Storyboard.Proofs.Timeline.Resolution

/-!
# Looking up a time

The boundary of a time is found in the table of boundaries, the step of a frame by playing the cues.
Each boundary has a marker among the cues, and the markers are in the order of the table; so the two
agree up to boundaries that start together (`compile_lookup`).
-/

namespace Storyboard

/-! ### Step markers -/

variable {T G : Type}

/-- The step that a cue marks the start of, and the start. -/
def Cue.marked? (c : Cue T G) : Option (Nat × T) :=
  match c.operation with
  | .step number => some (number, c.start)
  | _ => none

theorem Cue.marked?_start {c : Cue T G} {mark : Nat × T} (marks : c.marked? = some mark) :
    mark.2 = c.start := by
  unfold Cue.marked? at marks
  split at marks
  · rw [← Option.some.inj marks]
  · cases marks

section

variable [Scalar G] [Scalar T] [Narrow T G]

/-- A frame is in the step that was marked last. -/
theorem Frame.sample_step (initial : OrderedMap String (Appearance G)) (cues : List (Cue T G))
    (time : T) : (sample initial cues time).step =
      (((cues.takeWhile (fun c => c.start ≤ time)).filterMap Cue.marked?).getLast?).map Prod.fst := by
  have fold : ∀ (played : List (Cue T G)) (f : Frame T G),
      (played.foldl (fun f c => f.apply c.operation (narrow (c.progress time))) f).step =
        (((played.filterMap Cue.marked?).getLast?).map Prod.fst).or f.step := by
    intro played
    induction played with
    | nil => exact fun f => rfl
    | cons c rest ih =>
      intro f
      rw [List.foldl_cons, ih]
      cases marks : c.operation with
      | step number =>
        rw [List.filterMap_cons_some (b := (number, c.start)) (by simp [Cue.marked?, marks]),
          List.getLast?_cons]
        cases (rest.filterMap Cue.marked?).getLast? <;> rfl
      | _ =>
        rw [List.filterMap_cons_none (by simp [Cue.marked?, marks])]
        rfl
  exact (fold _ { time, states := initial }).trans Option.or_none

end

namespace Diagram

variable [ExactScalar T] [Scalar G] [Narrow T G] (d : Diagram T G) (o : CompileOptions G)

theorem stepCues_marked {s : Step T} {known : OrderedMap String (Color G)} {start : T} {c : Cue T G}
    (member : c ∈ d.stepCues s o known start) : c.marked? = none := by
  have makes := d.stepCues_makes s o member
  generalize operation : c.operation = made at makes
  cases makes <;> simp [Cue.marked?, operation]

theorem passage_marked {p : Passage T G} (member : p ∈ d.passages o) :
    p.cues.filterMap Cue.marked? = [(p.number, p.start)] := by
  have silent : (p.parts.flatMap Prod.snd).filterMap Cue.marked? = [] := by
    refine List.filterMap_eq_nil_iff.mpr fun c inside => ?_
    obtain ⟨part, stands, cued⟩ := List.mem_flatMap.mp inside
    obtain ⟨known, made⟩ := mem_passagesFrom member stands
    exact d.stepCues_marked o (made ▸ cued)
  rw [Passage.cues, List.filterMap_cons_some (f := Cue.marked?) rfl, silent]
  rfl

theorem made_marked : (d.made o).filterMap Cue.marked? =
    (d.compile o).boundaries.map fun b => (b.step, b.start) := by
  obtain ⟨cues, boundaries⟩ :=
    passagesFrom_compiled (d := d) (o := o) (groups d.steps) { cursor := (Scalar.ofNat 0 : T) }
  have marks : ((d.passages o).flatMap Passage.cues).filterMap Cue.marked? =
      (d.passages o).map fun p => (p.number, p.start) := by
    rw [List.filterMap_flatMap, List.map_eq_flatMap]
    exact List.flatMap_congr fun p member => d.passage_marked o member
  exact (congrArg (List.filterMap Cue.marked?) cues).trans (marks.trans boundaries.symm)

/-- The markers are made in the order of their starts, so sorting leaves them in their order. -/
theorem compile_marked : (d.compile o).cues.filterMap Cue.marked? =
    (d.compile o).boundaries.map fun b => (b.step, b.start) := by
  have starts : ((d.made o).filterMap Cue.marked?).Pairwise fun a b => a.2 ≤ b.2 := by
    rw [made_marked]
    exact List.pairwise_map.mpr (Tiling.sorted (d.compile_tiled o))
  have sorted : ((d.made o).filter fun c => c.marked?.isSome).Pairwise fun a b =>
      decide (a.start ≤ b.start) = true := by
    refine List.pairwise_filter.mpr ((List.pairwise_filterMap.mp starts).imp ?_)
    intro a b ordered first second
    obtain ⟨mark, marks⟩ := Option.isSome_iff_exists.mp first
    obtain ⟨mark', marks'⟩ := Option.isSome_iff_exists.mp second
    rw [← Cue.marked?_start marks, ← Cue.marked?_start marks']
    exact decide_eq_true (ordered mark marks mark' marks')
  have kept (cues : List (Cue T G)) : cues.filterMap Cue.marked? =
      (cues.filter fun c => c.marked?.isSome).filterMap Cue.marked? := by
    rw [List.filterMap_filter]
    refine List.filterMap_congr fun c _ => ?_
    cases c.marked? <;> rfl
  have same := filter_mergeSort_of_sorted (decide_le_trans Cue.start) (decide_le_total Cue.start)
    sorted
  rw [← made_marked, kept (d.compile o).cues, kept (d.made o), ← same]
  rfl

end Diagram

/-! ### Tables of boundaries -/

namespace Timeline

section

variable (t : Timeline T G) [LinearOrder T] (time : T)

/-- The indices of the boundaries that start at a time. -/
def startsAt : Set Nat := {i | ∃ b, t.boundaries[i]? = some b ∧ b.start = time}

def startsBefore : Set Nat := {i | ∃ b, t.boundaries[i]? = some b ∧ b.start < time}

def startsBy : Set Nat := {i | ∃ b, t.boundaries[i]? = some b ∧ b.start ≤ time}

/-- The boundaries, parted by whether they start before a time, at the time or after it. -/
structure Parts (early same late : List (Boundary T)) : Prop where
  all : t.boundaries = early ++ same ++ late
  before : ∀ b ∈ early, b.start < time
  at_ : ∀ b ∈ same, b.start = time
  after : ∀ b ∈ late, time < b.start

end

namespace Parts

variable [ExactScalar T] {t : Timeline T G} {time : T} {early same late : List (Boundary T)}

theorem started (parts : t.Parts time early same late) : ∀ b ∈ early ++ same, b.start ≤ time := by
  refine List.forall_mem_append.mpr ⟨fun b member => (parts.before b member).le, ?_⟩
  exact fun b member => (parts.at_ b member).le

theorem mem_startsBefore (parts : t.Parts time early same late) (k : Nat) :
    k ∈ t.startsBefore time ↔ k < early.length := by
  change (∃ b, t.boundaries[k]? = some b ∧ b.start < time) ↔ _
  rw [parts.all, List.append_assoc]
  refine getElem?_append_iff parts.before (List.forall_mem_append.mpr ⟨?_, ?_⟩) k
  · exact fun b member => (parts.at_ b member).not_lt
  · exact fun b member => (parts.after b member).not_gt

theorem mem_startsBy (parts : t.Parts time early same late) (k : Nat) :
    k ∈ t.startsBy time ↔ k < (early ++ same).length := by
  change (∃ b, t.boundaries[k]? = some b ∧ b.start ≤ time) ↔ _
  rw [parts.all]
  exact getElem?_append_iff parts.started (fun b member => (parts.after b member).not_ge) k

theorem mem_startsAt (parts : t.Parts time early same late) (k : Nat) :
    k ∈ t.startsAt time ↔ early.length ≤ k ∧ k < (early ++ same).length := by
  rw [← Nat.not_lt, ← parts.mem_startsBefore, ← parts.mem_startsBy]
  constructor
  · rintro ⟨b, found, rfl⟩
    refine ⟨?_, b, found, le_refl _⟩
    rintro ⟨c, other, early⟩
    rw [found] at other
    exact early.ne (congrArg Boundary.start (Option.some.inj other)).symm
  · rintro ⟨late, b, found, started⟩
    exact ⟨b, found, started.antisymm (not_lt.mp fun early => late ⟨b, found, early⟩)⟩

/-- The first of the boundaries that start at the time, or else the last that started before. -/
theorem boundaryAt? (parts : t.Parts (t.cut time) early same late) (present : early ++ same ≠ []) :
    t.boundaryAt? time = some (if same = [] then early.length - 1 else early.length) := by
  have some_boundary : ¬ t.boundaries.isEmpty = true := by
    rw [List.isEmpty_iff, parts.all]
    exact fun none => present (List.append_eq_nil_iff.mp none).1
  have started : t.boundaries.takeWhile (fun b => b.start ≤ t.cut time) = early ++ same := by
    rw [parts.all]
    exact takeWhile_append_of_stop (fun b member => decide_eq_true (parts.started b member))
      fun b head => decide_eq_false (parts.after b (List.mem_of_mem_head? head)).not_ge
  have early_no : ∀ b ∈ early, (b.start == t.cut time) = false := fun b member =>
    beq_eq_false_iff_ne.mpr (parts.before b member).ne
  have behind : t.boundaries.take ((early ++ same).length - 1) = (early ++ same).dropLast := by
    rw [parts.all, List.take_append_of_le_length (Nat.sub_le _ _), List.dropLast_eq_take]
  have shared : ((early ++ same).dropLast.reverse.takeWhile
      (fun b => b.start == t.cut time)).length = same.length - 1 := by
    rw [← List.length_dropLast]
    cases same with
    | nil =>
      rw [List.append_nil, ← List.append_nil early.dropLast]
      exact length_takeWhile_reverse (fun b member => early_no b (List.dropLast_subset early member))
        (by simp)
    | cons first rest =>
      rw [List.dropLast_append_of_ne_nil (List.cons_ne_nil first rest)]
      refine length_takeWhile_reverse early_no fun b member => ?_
      exact beq_iff_eq.mpr (parts.at_ b (List.dropLast_subset _ member))
  rw [Timeline.boundaryAt?, if_neg some_boundary]
  dsimp only
  rw [started, behind, shared]
  cases same with
  | nil => simp
  | cons first rest => simp [Nat.add_sub_assoc]

theorem isGreatest_startsBy (parts : t.Parts time early same late) (present : early ++ same ≠ []) :
    IsGreatest (t.startsBy time) ((early ++ same).length - 1) := by
  have positive := List.length_pos_iff.mpr present
  refine ⟨(parts.mem_startsBy _).mpr (by omega), fun k started => ?_⟩
  have inside := (parts.mem_startsBy k).mp started
  omega

theorem isLeast_or_isGreatest (parts : t.Parts time early same late) (present : early ++ same ≠ []) :
    let i := if same = [] then early.length - 1 else early.length
    IsLeast (t.startsAt time) i ∨ (t.startsAt time = ∅ ∧ IsGreatest (t.startsBefore time) i) := by
  intro i
  by_cases none : same = []
  · subst none
    rw [List.append_nil] at present
    have positive := List.length_pos_iff.mpr present
    have index : i = early.length - 1 := if_pos rfl
    refine .inr ⟨Set.eq_empty_of_forall_notMem fun k starts => ?_, ?_, fun k before => ?_⟩
    · have inside := (parts.mem_startsAt k).mp starts
      rw [List.append_nil] at inside
      omega
    · exact (parts.mem_startsBefore i).mpr (by omega)
    · have inside := (parts.mem_startsBefore k).mp before
      omega
  · have index : i = early.length := if_neg none
    have positive := List.length_pos_iff.mpr none
    refine .inl ⟨(parts.mem_startsAt i).mpr ?_, fun k starts => ?_⟩
    · rw [List.length_append]
      omega
    · have inside := (parts.mem_startsAt k).mp starts
      omega

/-- There is at most one boundary that starts at the time if and only if the first of those that start
then, or else the last before, is also the last that has started. -/
theorem subsingleton_iff (parts : t.Parts time early same late) :
    (if same = [] then early.length - 1 else early.length) = (early ++ same).length - 1 ↔
      (t.startsAt time).Subsingleton := by
  rw [List.length_append]
  constructor
  · intro index k first k' second
    rw [parts.mem_startsAt, List.length_append] at first second
    by_cases none : same = []
    · rw [none, List.length_nil] at first
      omega
    · rw [if_neg none] at index
      omega
  · intro single
    by_cases none : same = []
    · rw [if_pos none, none, List.length_nil, Nat.add_zero]
    · have positive := List.length_pos_iff.mpr none
      rw [if_neg none]
      refine single ((parts.mem_startsAt _).mpr ?_) ((parts.mem_startsAt _).mpr ?_) <;>
        rw [List.length_append] <;> omega

/-- Strictly within a boundary no other one starts, and none after it has started. -/
theorem index_within (parts : t.Parts time early same late) (tiled : t.Tiled) {k : Nat}
    {e : Boundary T} (found : t.boundaries[k]? = some e) (after : e.start < time)
    (going : time < e.stop) : (if same = [] then early.length - 1 else early.length) = k := by
  have early_k := (parts.mem_startsBefore k).mp ⟨e, found, after⟩
  have last : ¬ k + 1 < (early ++ same).length := by
    intro more
    obtain ⟨f, next, started⟩ := (parts.mem_startsBy (k + 1)).mpr more
    rw [Tiling.next_start tiled found next] at started
    exact absurd going started.not_gt
  rw [List.length_append] at last
  have none : same = [] := List.length_eq_zero_iff.mp (by omega)
  rw [if_pos none]
  omega

end Parts

theorem Tiled.exists_parts [ExactScalar T] {t : Timeline T G} (h : t.Tiled)
    (present : t.boundaries ≠ []) (time : T) :
    ∃ early same late, t.Parts (t.cut time) early same late ∧ early ++ same ≠ [] := by
  obtain ⟨early, same, late, all, before, at_, after⟩ :=
    Storyboard.exists_parts Boundary.start (Tiling.sorted h) (t.cut time)
  refine ⟨early, same, late, ⟨all, before, at_, after⟩, fun none => ?_⟩
  -- The first boundary starts at zero.
  rw [none, List.nil_append] at all
  obtain ⟨first, rest, cons⟩ := List.exists_cons_of_ne_nil present
  have start : first.start = 0 := Tiling.first_start h (by rw [cons]; rfl)
  have late := after first (by rw [← all, cons]; exact List.mem_cons_self)
  exact absurd late (start ▸ (t.cut_mem h time).1.not_gt)

end Timeline

namespace Diagram

variable [ExactScalar T] [Scalar G] [Narrow T G] {d : Diagram T G} {o : CompileOptions G} {time : T}

/-- What marks that has started at a time are the markers of the boundaries that have. -/
theorem sample_step {early same late : List (Boundary T)}
    (parts : (d.compile o).Parts ((d.compile o).cut time) early same late) :
    ((d.compile o).sample time).step = ((early ++ same).getLast?).map Boundary.step := by
  obtain ⟨below, equal, above, cues, less, now, more⟩ :=
    exists_parts Cue.start (d.compile_plays o).sorted ((d.compile o).cut time)
  have upTo : ∀ c ∈ below ++ equal, c.start ≤ (d.compile o).cut time :=
    List.forall_mem_append.mpr ⟨fun c member => (less c member).le, fun c member => (now c member).le⟩
  have started : (d.compile o).cues.takeWhile (fun c => c.start ≤ (d.compile o).cut time) =
      below ++ equal := by
    rw [cues]
    exact takeWhile_append_of_stop (fun c member => decide_eq_true (upTo c member))
      fun c head => decide_eq_false (more c (List.mem_of_mem_head? head)).not_ge
  have marks := d.compile_marked o
  rw [cues, parts.all, List.filterMap_append, List.map_append] at marks
  obtain ⟨same, _⟩ := append_inj_of_split (p := fun m => decide (m.2 ≤ (d.compile o).cut time)) marks
    (fun m member => by
      obtain ⟨c, inside, marks⟩ := List.mem_filterMap.mp member
      exact decide_eq_true (Cue.marked?_start marks ▸ upTo c inside))
    (fun m member => by
      obtain ⟨b, inside, rfl⟩ := List.mem_map.mp member
      exact decide_eq_true (parts.started b inside))
    (fun m member => by
      obtain ⟨c, inside, marks⟩ := List.mem_filterMap.mp member
      exact decide_eq_false (Cue.marked?_start marks ▸ (more c inside).not_ge))
    (fun m member => by
      obtain ⟨b, inside, rfl⟩ := List.mem_map.mp member
      exact decide_eq_false (parts.after b inside).not_ge)
  rw [Timeline.sample, Frame.sample_step, started, same, List.getLast?_map, Option.map_map]
  rfl

/-- The boundary at a time is the first of those that start then, or else the last that started
before; so within a boundary it is that one. The frame is in the step of the last boundary that has
started, which is another step where two boundaries start. -/
theorem compile_lookup (d : Diagram T G) (o : CompileOptions G)
    (present : (d.compile o).boundaries ≠ []) (time : T) :
    let t := d.compile o
    let now := t.cut time
    (0 ≤ now ∧ now ≤ t.duration) ∧
    ∃ i j b c, t.boundaryAt? time = some i ∧ t.boundaries[i]? = some b ∧
      (IsLeast (t.startsAt now) i ∨ (t.startsAt now = ∅ ∧ IsGreatest (t.startsBefore now) i)) ∧
      (∀ k e, t.boundaries[k]? = some e → e.start < now → now < e.stop → i = k) ∧
      (t.sample time).step = some c.step ∧ t.boundaries[j]? = some c ∧
      IsGreatest (t.startsBy now) j ∧
      (b.step = c.step ↔ (t.startsAt now).Subsingleton) := by
  intro t now
  have tiled := d.compile_tiled o
  obtain ⟨early, same, late, parts, started⟩ := tiled.exists_parts present time
  have distinct : (t.boundaries.map Boundary.step).Nodup := by
    rw [d.compile_steps o]
    exact eraseDups_nodup _
  have latest := parts.isGreatest_startsBy started
  have first := parts.isLeast_or_isGreatest started
  obtain ⟨b, here, _⟩ : (if same = [] then early.length - 1 else early.length) ∈ t.startsBy now := by
    rcases first with least | ⟨_, greatest⟩
    · obtain ⟨b, found, starts⟩ := least.1
      exact ⟨b, found, starts.le⟩
    · obtain ⟨b, found, starts⟩ := greatest.1
      exact ⟨b, found, starts.le⟩
  obtain ⟨c, there, _⟩ := latest.1
  refine ⟨t.cut_mem tiled time, _, _, b, c, parts.boundaryAt? started, here, first,
    fun k e found after going => parts.index_within tiled found after going, ?_, there, latest, ?_⟩
  · have last : (early ++ same).getLast? = some c := by
      have inside : (early ++ same).length - 1 < (early ++ same).length := by
        have positive := List.length_pos_iff.mpr started
        omega
      rw [parts.all, List.getElem?_append_left inside] at there
      rw [List.getLast?_eq_getElem?, there]
    rw [sample_step parts, last]
    rfl
  · rw [← parts.subsingleton_iff]
    constructor
    · intro same_step
      have inside := (List.getElem?_eq_some_iff.mp here).1
      refine (List.getElem?_inj (by rwa [List.length_map]) distinct).mp ?_
      rw [List.getElem?_map, List.getElem?_map, here, there]
      exact congrArg some same_step
    · intro index
      rw [index, there] at here
      rw [Option.some.inj here]

/-- Steps that take no time at the beginning, in the middle and at the end, out of order. -/
def paused : Diagram Rat Rat where
  nodes := [{ id := "A", label := "A" }]
  steps :=
    [{ number := 4, action := .annotate }, { number := 2, action := .reveal, targets := [.entity "A"] },
      { number := 9, action := .annotate }, { number := 1, action := .annotate },
      { number := 3, action := .hide, targets := [.entity "A"] }, { number := 7, action := .annotate }]

/-- When the node is there, three boundaries start: the first of them is looked up, and the frame is in
the step of the last. -/
theorem paused_lookup :
    let t := paused.compile .standard
    t.boundaries = [⟨4, 0, 0⟩, ⟨2, 0, 1⟩, ⟨9, 1, 1⟩, ⟨1, 1, 1⟩, ⟨3, 1, 2⟩, ⟨7, 2, 2⟩] ∧
    t.boundaries ≠ [] ∧ (0 ≤ t.cut 1 ∧ t.cut 1 ≤ t.duration) ∧
    ∃ i j b c, t.boundaryAt? 1 = some i ∧ t.boundaries[i]? = some b ∧
      IsLeast (t.startsAt (t.cut 1)) i ∧ (t.sample 1).step = some c.step ∧
      t.boundaries[j]? = some c ∧ IsGreatest (t.startsBy (t.cut 1)) j ∧
      b.step = 9 ∧ c.step = 3 ∧ ¬ (t.startsAt (t.cut 1)).Subsingleton := by
  intro t
  have boundaries :
      t.boundaries = [⟨4, 0, 0⟩, ⟨2, 0, 1⟩, ⟨9, 1, 1⟩, ⟨1, 1, 1⟩, ⟨3, 1, 2⟩, ⟨7, 2, 2⟩] := by
    decide +kernel
  have present : t.boundaries ≠ [] := by simp [boundaries]
  obtain ⟨within, i, j, b, c, located, here, first, _, step, there, latest, agree⟩ :=
    compile_lookup paused .standard present 1
  obtain rfl : i = 2 := Option.some.inj (located.symm.trans (by decide +kernel))
  have starts : (2 : Nat) ∈ t.startsAt (t.cut 1) :=
    ⟨⟨9, 1, 1⟩, by rw [boundaries]; rfl, by decide +kernel⟩
  have least := first.resolve_right fun none => Set.notMem_empty 2 (none.1 ▸ starts)
  rw [boundaries] at here
  obtain rfl := Option.some.inj here
  -- The last boundary that has started is the fifth, since the sixth starts later.
  have started : (4 : Nat) ≤ j := latest.2 ⟨⟨3, 1, 2⟩, by rw [boundaries]; rfl, by decide +kernel⟩
  obtain ⟨e, found, early⟩ := latest.1
  rw [boundaries] at there found
  obtain rfl : j = 4 := by
    have inside := (List.getElem?_eq_some_iff.mp found).1
    rcases Nat.lt_or_ge j 5 with four | more
    · omega
    · obtain rfl : j = 5 := by
        simp only [List.length_cons, List.length_nil] at inside
        omega
      obtain rfl := Option.some.inj found
      exact absurd early (by decide +kernel)
  obtain rfl := Option.some.inj there
  exact ⟨boundaries, present, within, 2, 4, _, _, located, by rw [boundaries]; rfl, least, step,
    by rw [boundaries]; rfl, latest, rfl, rfl, fun single => absurd (agree.mpr single) (by decide)⟩

end Diagram

end Storyboard
