import Storyboard.Proofs.Timeline.Tiling
import Storyboard.Timeline.Compile

/-!
# Schedules

The cues of a step lie between the start of its group and the time at which the step is over, and
that time is the end of one of them. So the boundaries of a compiled timeline tile it, and it is
over with its last cue.
-/

namespace Storyboard

variable {T G : Type}

theorem Diagram.Scheduled.accompanyIf_stop (s : Scheduled T G) (wanted : Bool) (c : Cue T G) :
    (s.accompanyIf wanted c).stop = s.stop := by
  unfold Scheduled.accompanyIf
  split <;> rfl

variable [ExactScalar T]

namespace Cue

def Within (start stop : T) (c : Cue T G) : Prop :=
  start ≤ c.start ∧ 0 ≤ c.duration ∧ c.stop ≤ stop

theorem Within.mono {start start' stop stop' : T} {c : Cue T G} (h : c.Within start stop)
    (earlier : start' ≤ start) (later : stop ≤ stop') : c.Within start' stop' :=
  ⟨earlier.trans h.1, h.2.1, h.2.2.trans later⟩

theorem of_duration (operation : Operation G) (start duration : T) (ease : Ease) :
    (of operation start duration ease).duration = max duration 0 := by
  simp [of]

theorem of_nonneg (operation : Operation G) (start duration : T) (ease : Ease) :
    0 ≤ (of operation start duration ease).duration := by
  rw [of_duration]
  exact le_max_right _ _

theorem of_stop (operation : Operation G) (start duration : T) (ease : Ease) :
    (of operation start duration ease).stop = start + max duration 0 := by
  simp [of, stop]

theorem Within.forward {start stop : T} {c : Cue T G} (h : c.Within start stop) : c.start ≤ c.stop :=
  le_add_of_nonneg_right h.2.1

theorem progress_of_stop {c : Cue T G} {time : T} (forward : c.start ≤ c.stop)
    (past : c.stop ≤ time) : c.progress time = 1 := by
  rw [progress, if_neg (not_lt.mpr (forward.trans past)), if_pos past]
  exact ExactScalar.one_eq

end Cue

/-! ### Property values -/

namespace Properties

variable {p : Properties T}

theorem seconds?_nonneg {key : String} {time : T} (h : p.seconds? key = some time) : 0 ≤ time := by
  obtain ⟨value, _, rfl⟩ := Option.map_eq_some_iff.mp h
  simp

theorem seconds?_getD_nonneg (key : String) {otherwise : T} (nonneg : 0 ≤ otherwise) :
    0 ≤ (p.seconds? key).getD otherwise := by
  cases found : p.seconds? key with
  | none => exact nonneg
  | some time => exact seconds?_nonneg found

theorem delay_nonneg : 0 ≤ p.delay := seconds?_getD_nonneg _ (by simp)

theorem stagger_nonneg : 0 ≤ p.stagger := seconds?_getD_nonneg _ (by simp)

theorem drawTime_nonneg : 0 ≤ p.drawTime :=
  seconds?_getD_nonneg _ (Nat.cast_nonneg 2)

end Properties

namespace Diagram

theorem labelShare_mem : 0 ≤ (labelShare : T) ∧ (labelShare : T) ≤ 1 := by
  have value : (labelShare : T) = (15 : Nat) * (10 : T) ^ (-((2 : Nat) : Int)) :=
    ExactScalar.decimal_eq 15 2
  rw [value]
  constructor <;> norm_num

/-! ### Steps -/

namespace Scheduled

/-- The cues lie between the start of the group and the end of the step, which is the start of
the group or the end of a cue. -/
structure Fits (start : T) (s : Scheduled T G) : Prop where
  forward : start ≤ s.stop
  within : ∀ c ∈ s.cues, c.Within start s.stop
  attained : s.stop = start ∨ ∃ c ∈ s.cues, c.stop = s.stop

variable {start : T} {s : Scheduled T G}

theorem Fits.await (h : Fits start s) {c : Cue T G} (late : start ≤ c.start)
    (nonneg : 0 ≤ c.duration) : Fits start (s.await c) := by
  have stop : (s.await c).stop = max s.stop c.stop := by simp [Scheduled.await]
  refine ⟨?_, ?_, ?_⟩
  · rw [stop]
    exact h.forward.trans (le_max_left _ _)
  · intro c' member
    rw [stop]
    rcases List.mem_append.mp member with old | new
    · exact (h.within c' old).mono (le_refl _) (le_max_left _ _)
    · obtain rfl := List.mem_singleton.mp new
      exact ⟨late, nonneg, le_max_right _ _⟩
  · rw [stop]
    rcases le_total s.stop c.stop with later | earlier
    · rw [max_eq_right later]
      exact .inr ⟨c, List.mem_append_right _ List.mem_cons_self, rfl⟩
    · rw [max_eq_left earlier]
      exact h.attained.imp_right fun ⟨c, member, same⟩ => ⟨c, List.mem_append_left _ member, same⟩

theorem mem_await (s : Scheduled T G) (c : Cue T G) : c ∈ (s.await c).cues :=
  List.mem_append_right _ List.mem_cons_self

theorem Fits.accompany (h : Fits start s) {c : Cue T G} (within : c.Within start s.stop) :
    Fits start (s.accompany c) := by
  refine ⟨h.forward, ?_, ?_⟩
  · intro c' member
    rcases List.mem_append.mp member with old | new
    · exact h.within c' old
    · exact List.mem_singleton.mp new ▸ within
  · exact h.attained.imp_right fun ⟨c, member, same⟩ => ⟨c, List.mem_append_left _ member, same⟩

theorem Fits.accompanyIf (h : Fits start s) (wanted : Bool) {c : Cue T G}
    (within : c.Within start s.stop) : Fits start (s.accompanyIf wanted c) := by
  unfold Scheduled.accompanyIf
  split
  · exact h.accompany within
  · exact h

theorem Fits.staggered {α : Type} {first stagger : T} {f : Scheduled T G → α → T → Scheduled T G}
    {targets : List α} (late : start ≤ first) (forward : 0 ≤ stagger)
    (each : ∀ s target time, Fits start s → start ≤ time → Fits start (f s target time))
    (h : Fits start s) : Fits start (Diagram.staggered first stagger f s targets) := by
  unfold Diagram.staggered
  generalize targets.zipIdx = entries
  induction entries generalizing s with
  | nil => exact h
  | cons entry rest ih =>
    refine ih (each s _ _ h ?_)
    have shift : 0 ≤ (entry.2 : T) * stagger := mul_nonneg (Nat.cast_nonneg _) forward
    exact late.trans (le_add_of_nonneg_right shift)

end Scheduled

open Scheduled

/-- The label of an edge comes in while the edge is drawn. -/
theorem label_within {start stop draw time : T} {operation label : Operation G} {ease : Ease}
    (nonneg : 0 ≤ draw) (drawn : (Cue.of operation time draw ease).Within start stop) :
    (Cue.of label (time + draw - draw * labelShare) (draw * labelShare) .linear).Within
      start stop := by
  obtain ⟨positive, small⟩ := labelShare_mem (T := T)
  have share : 0 ≤ draw * labelShare := mul_nonneg nonneg positive
  have part : draw * labelShare ≤ draw := mul_le_of_le_one_right nonneg small
  obtain ⟨late, _, ends⟩ := drawn
  rw [Cue.of_stop, max_eq_left nonneg] at ends
  have begins : start ≤ time := late
  refine ⟨?_, Cue.of_nonneg .., ?_⟩
  · show start ≤ time + draw - draw * labelShare
    linarith
  · rw [Cue.of_stop, max_eq_left share]
    linarith

variable [Scalar G] [Narrow T G]

theorem schedule_fits (d : Diagram T G) (o : CompileOptions G)
    (baseColors : OrderedMap String (Color G)) (s : Step T) (start : T) :
    Fits start (d.schedule o baseColors s start) := by
  have late : start ≤ start + s.properties.delay := le_add_of_nonneg_right Properties.delay_nonneg
  have idle : Fits start ({ stop := start, baseColors } : Scheduled T G) :=
    ⟨le_refl start, by simp, .inl rfl⟩
  unfold schedule
  cases s.action with
  | reveal =>
    refine idle.staggered late Properties.stagger_nonneg fun r id time h late => ?_
    exact h.await late (Cue.of_nonneg ..)
  | hide =>
    refine idle.staggered late Properties.stagger_nonneg fun r id time h late => ?_
    exact h.await late (Cue.of_nonneg ..)
  | highlight =>
    refine idle.staggered late Properties.stagger_nonneg fun r id time h late => ?_
    have known : Fits start { r with baseColors := r.baseColors.insertNew id (d.baseColor o id) } :=
      ⟨h.forward, h.within, h.attained⟩
    have recolored := known.await (c := .of (.recolor id (s.properties.color?.getD o.highlightColor))
      time s.properties.duration (easeOf s default)) late (Cue.of_nonneg ..)
    -- What goes with the color takes the same time.
    have within := recolored.within _ (mem_await _ _)
    have glowing := recolored.accompanyIf (s.properties.flag "glow") (c := .of (.glow id) time
      s.properties.duration (easeOf s default)) within
    refine glowing.accompanyIf _ ?_
    rw [accompanyIf_stop]
    exact within
  | unhighlight =>
    refine idle.staggered late Properties.stagger_nonneg fun r id time h late => ?_
    exact h.await late (Cue.of_nonneg ..)
  | connect =>
    refine idle.staggered late Properties.stagger_nonneg fun r e time h late => ?_
    have drawn := h.await (c := .of (.draw e.id s.properties.flow) time s.properties.drawTime
      (easeOf s .linear)) late (Cue.of_nonneg ..)
    exact drawn.accompanyIf _ (label_within Properties.drawTime_nonneg
      (drawn.within _ (mem_await _ _)))
  | camera =>
    dsimp only
    split
    · exact idle.await late (Cue.of_nonneg ..)
    · exact idle
  | move =>
    refine idle.staggered late Properties.stagger_nonneg fun r id time h late => ?_
    split
    · exact h.await late (Cue.of_nonneg ..)
    · exact h
  | transform =>
    refine idle.staggered late Properties.stagger_nonneg fun r id time h late => ?_
    have transformed : Fits start (if (s.properties.scale? : Option G).isSome ||
        (s.properties.rotation? : Option G).isSome then
          r.await (.of (.transform id s.properties.scale? s.properties.rotation?) time
            s.properties.duration (easeOf s default)) else r) := by
      split
      · exact h.await late (Cue.of_nonneg ..)
      · exact h
    dsimp only
    split
    · exact transformed.await late (Cue.of_nonneg ..)
    · exact transformed
  | annotate => exact idle

/-! ### Groups -/

/-- What has been compiled so far tiles the time up to the cursor, and the cues lie before it. The
cursor is zero or the end of a cue. -/
structure Compiled.Fits (c : Compiled T G) : Prop where
  tiling : Tiling c.boundaries c.cursor
  within : ∀ cue ∈ c.cues, cue.Within 0 c.cursor
  attained : c.cursor = 0 ∨ ∃ cue ∈ c.cues, cue.stop = c.cursor

/-- What steps of a group that starts at a time add: cues from the start of the group to the new
cursor, which stays where it was or is the end of one of them. -/
structure Compiled.Extends (start : T) (before : Compiled T G) (cues : List (Cue T G))
    (after : Compiled T G) : Prop where
  boundaries : after.boundaries = before.boundaries
  forward : before.cursor ≤ after.cursor
  added : after.cues = before.cues ++ cues
  within : ∀ cue ∈ cues, cue.Within start after.cursor
  attained : after.cursor = before.cursor ∨ ∃ cue ∈ cues, cue.stop = after.cursor

theorem compileStep_extends (d : Diagram T G) (o : CompileOptions G) {start : T}
    {c : Compiled T G} (s : Step T) (started : start ≤ c.cursor) :
    c.Extends start (d.schedule o c.baseColors s start).cues (d.compileStep o start c s) := by
  have fits := d.schedule_fits o c.baseColors s start
  have cursor : (d.compileStep o start c s).cursor =
      max (d.schedule o c.baseColors s start).stop c.cursor := by simp [compileStep]
  refine ⟨rfl, ?_, rfl, ?_, ?_⟩
  · rw [cursor]
    exact le_max_right _ _
  · intro cue member
    rw [cursor]
    exact (fits.within cue member).mono (le_refl _) (le_max_left _ _)
  · rw [cursor]
    rcases le_total (d.schedule o c.baseColors s start).stop c.cursor with earlier | later
    · exact .inl (max_eq_right earlier)
    · rw [max_eq_left later]
      exact fits.attained.imp_left fun same => le_antisymm (same.trans_le started) later

theorem foldl_compileStep_extends (d : Diagram T G) (o : CompileOptions G) {start : T}
    {c : Compiled T G} (steps : List (Step T)) (started : start ≤ c.cursor) :
    ∃ cues, c.Extends start cues (steps.foldl (d.compileStep o start) c) := by
  induction steps generalizing c with
  | nil => exact ⟨[], rfl, le_refl _, (List.append_nil _).symm, by simp, .inl rfl⟩
  | cons s rest ih =>
    have first := d.compileStep_extends o s started
    obtain ⟨cues, further⟩ := ih (started.trans first.forward)
    refine ⟨(d.schedule o c.baseColors s start).cues ++ cues, ?_, ?_, ?_, ?_, ?_⟩
    · exact further.boundaries.trans first.boundaries
    · exact first.forward.trans further.forward
    · rw [List.foldl_cons, further.added, first.added, List.append_assoc]
    · intro cue member
      rcases List.mem_append.mp member with old | new
      · exact (first.within cue old).mono (le_refl _) further.forward
      · exact further.within cue new
    · rcases further.attained with same | ⟨cue, member, ends⟩
      · rw [List.foldl_cons, same]
        exact first.attained.imp_right fun ⟨cue, member, ends⟩ =>
          ⟨cue, List.mem_append_left _ member, ends⟩
      · exact .inr ⟨cue, List.mem_append_right _ member, ends⟩

/-- A group adds its marker and the cues of its steps, and a boundary up to the new cursor. -/
theorem compileGroup_extends (d : Diagram T G) (o : CompileOptions G) (c : Compiled T G)
    (group : Nat × List (Step T)) :
    ∃ cues, (d.compileGroup o c group).boundaries =
        c.boundaries ++ [⟨group.1, c.cursor, (d.compileGroup o c group).cursor⟩] ∧
      c.cursor ≤ (d.compileGroup o c group).cursor ∧
      (d.compileGroup o c group).cues = c.cues ++ cues ∧
      (∀ cue ∈ cues, cue.Within c.cursor (d.compileGroup o c group).cursor) ∧
      (∃ cue ∈ cues, cue.stop = (d.compileGroup o c group).cursor) := by
  have marker : (Cue.of (.step group.1 : Operation G) c.cursor (Scalar.ofNat 0) .linear).stop = c.cursor := by
    simp [Cue.of_stop]
  obtain ⟨cues, steps⟩ := d.foldl_compileStep_extends o
    (c := { c with cues := c.cues ++ [.of (.step group.1) c.cursor (Scalar.ofNat 0) .linear] }) group.2
    (le_refl c.cursor)
  refine ⟨.of (.step group.1) c.cursor (Scalar.ofNat 0) .linear :: cues, ?_, steps.forward, ?_, ?_, ?_⟩
  · exact congrArg (· ++ _) steps.boundaries
  · exact steps.added.trans (by simp)
  · intro cue member
    rcases List.mem_cons.mp member with rfl | later
    · exact ⟨le_refl _, Cue.of_nonneg .., marker.trans_le steps.forward⟩
    · exact steps.within cue later
  · rcases steps.attained with same | ⟨cue, member, ends⟩
    · exact ⟨_, List.mem_cons_self, marker.trans same.symm⟩
    · exact ⟨cue, List.mem_cons_of_mem _ member, ends⟩

theorem compileGroup_fits (d : Diagram T G) (o : CompileOptions G) {c : Compiled T G}
    (group : Nat × List (Step T)) (h : c.Fits) : (d.compileGroup o c group).Fits := by
  obtain ⟨cues, boundaries, forward, added, within, cue, member, ends⟩ :=
    d.compileGroup_extends o c group
  refine ⟨?_, ?_, ?_⟩
  · rw [boundaries]
    exact h.tiling.snoc group.1 forward
  · intro cue member
    rw [added] at member
    rcases List.mem_append.mp member with old | new
    · exact (h.within cue old).mono (le_refl _) forward
    · exact (within cue new).mono h.tiling.nonneg (le_refl _)
  · rw [added]
    exact .inr ⟨cue, List.mem_append_right _ member, ends⟩

theorem foldl_compileGroup_fits (d : Diagram T G) (o : CompileOptions G) {c : Compiled T G}
    (groups : List (Nat × List (Step T))) (h : c.Fits) :
    (groups.foldl (d.compileGroup o) c).Fits := by
  induction groups generalizing c with
  | nil => exact h
  | cons group rest ih => exact ih (d.compileGroup_fits o group h)

theorem compile_fits (d : Diagram T G) (o : CompileOptions G) :
    ∃ c : Compiled T G, c.Fits ∧ (d.compile o).boundaries = c.boundaries ∧
      (d.compile o).cues.Perm c.cues := by
  refine ⟨_, d.foldl_compileGroup_fits o (groups d.steps) ⟨?_, ?_, ?_⟩, rfl,
    List.mergeSort_perm _ _⟩
  · rw [ExactScalar.zero_eq]
    exact .nil
  · simp
  · exact .inl ExactScalar.zero_eq

theorem compile_tiled (d : Diagram T G) (o : CompileOptions G) : (d.compile o).Tiled := by
  obtain ⟨c, fits, boundaries, _⟩ := d.compile_fits o
  exact Timeline.tiled_of_tiling (boundaries ▸ fits.tiling)

/-- Every cue is over when the timeline is. -/
theorem compile_within (d : Diagram T G) (o : CompileOptions G) {c : Cue T G}
    (member : c ∈ (d.compile o).cues) : c.Within 0 (d.compile o).duration := by
  obtain ⟨compiled, fits, boundaries, perm⟩ := d.compile_fits o
  have duration : (d.compile o).duration = compiled.cursor :=
    Timeline.duration_of_tiling (boundaries ▸ fits.tiling)
  rw [duration]
  exact fits.within c (perm.mem_iff.mp member)

end Diagram

end Storyboard
