import Storyboard.Proofs.Timeline.Schedule
import Storyboard.Playback.Clock

/-!
# Clocks on exact times

A clock that takes the cues of a compiled timeline over is as long as the timeline, and its cursor
stays between zero and that length.
-/

namespace Storyboard

namespace Clock

variable {T G : Type} [ExactScalar T]

/-! ### The cursor -/

theorem seek_time {clock : Clock T G} {time : T} (positive : 0 ≤ time)
    (within : time ≤ clock.duration) : (clock.seek time).time = time := by
  unfold seek
  rw [ExactScalar.zero_eq]
  exact ExactScalar.clamp_of_mem positive within

theorem seek_mem (clock : Clock T G) (time : T) (positive : 0 ≤ clock.duration) :
    0 ≤ (clock.seek time).time ∧ (clock.seek time).time ≤ clock.duration := by
  have clamped := ExactScalar.clamp_mem time positive
  unfold seek
  rwa [ExactScalar.zero_eq]

theorem advance_mem (clock : Clock T G) (elapsed : T) (forward : 0 < clock.speed)
    (within : clock.time ≤ clock.duration) :
    clock.time ≤ (clock.advance elapsed).time ∧
      (clock.advance elapsed).time ≤ clock.duration := by
  unfold advance
  rw [ExactScalar.zero_eq]
  split
  · rename_i moves
    have step : 0 < elapsed * clock.speed := mul_pos moves.2 forward
    have later : clock.time ≤ clock.time + elapsed * clock.speed := by linarith
    rw [ExactScalar.least_eq]
    exact ⟨le_min later within, min_le_right _ _⟩
  · exact ⟨le_refl _, within⟩

theorem seek_zero {clock : Clock T G} (positive : 0 ≤ clock.duration) :
    (clock.seek (@OfNat.ofNat T 0 Scalar.instOfNat)).time = 0 := by
  rw [seek_time ExactScalar.zero_eq.ge (ExactScalar.zero_eq.trans_le positive)]
  exact ExactScalar.zero_eq

theorem advance_time {clock : Clock T G} (going : clock.playing = true) {elapsed : T}
    (positive : 0 < elapsed) :
    (clock.advance elapsed).time = min (clock.time + elapsed * clock.speed) clock.duration := by
  unfold advance
  rw [ExactScalar.zero_eq, if_pos ⟨going, positive⟩, ExactScalar.least_eq]

theorem advance_frame (clock : Clock T G) (elapsed : T) :
    ∃ time, clock.advance elapsed = { clock with time } := by
  unfold advance
  split
  · exact ⟨_, rfl⟩
  · exact ⟨clock.time, rfl⟩

/-! ### Taking over cues -/

theorem schedule_duration (c : Clock T G) (operation : Operation G) (start duration : T)
    (ease : Ease) : (c.schedule operation start duration ease).duration =
      max c.duration (start + max duration 0) := by
  simp [schedule, Cue.of_stop]

/-- A clock that has taken cues over is as long as the last of them. -/
theorem foldl_schedule_duration (cues : List (Cue T G)) (c : Clock T G)
    (nonneg : ∀ cue ∈ cues, 0 ≤ cue.duration) :
    let d := (cues.foldl (fun c cue => c.schedule cue.operation cue.start cue.duration cue.ease)
      c).duration
    c.duration ≤ d ∧ (∀ cue ∈ cues, cue.stop ≤ d) ∧
      (d = c.duration ∨ ∃ cue ∈ cues, d = cue.stop) := by
  induction cues generalizing c with
  | nil => exact ⟨le_refl _, by simp, .inl rfl⟩
  | cons cue rest ih =>
    have scheduled := c.schedule_duration cue.operation cue.start cue.duration cue.ease
    rw [max_eq_left (nonneg cue List.mem_cons_self)] at scheduled
    obtain ⟨longer, within, attained⟩ := ih
      (c.schedule cue.operation cue.start cue.duration cue.ease)
      fun cue member => nonneg cue (List.mem_cons_of_mem _ member)
    rw [scheduled] at longer attained
    refine ⟨(le_max_left _ _).trans longer, ?_, ?_⟩
    · intro cue' member
      rcases List.mem_cons.mp member with rfl | later
      · exact (le_max_right _ _).trans longer
      · exact within cue' later
    · rcases attained with same | ⟨cue', member, same⟩
      · rcases max_choice c.duration (cue.start + cue.duration) with old | new
        · exact .inl (same.trans old)
        · exact .inr ⟨cue, List.mem_cons_self, same.trans new⟩
      · exact .inr ⟨cue', List.mem_cons_of_mem _ member, same⟩

theorem install_speed [Scalar G] (clock : Clock T G) (t : Timeline T G) :
    (clock.install t).speed = clock.speed := by
  unfold install
  suffices kept : ∀ (cues : List (Cue T G)) (c : Clock T G), (cues.foldl (fun c cue =>
      c.schedule cue.operation cue.start cue.duration cue.ease) c).speed = c.speed from
    kept t.cues clock.clear
  intro cues
  induction cues with
  | nil => intro c; rfl
  | cons cue rest ih => intro c; exact ih _

variable [Scalar G] [Narrow T G]

theorem install_duration (c : Clock T G) (d : Diagram T G) (o : CompileOptions G) :
    (c.install (d.compile o)).duration = (d.compile o).duration := by
  obtain ⟨compiled, fits, boundaries, cues⟩ := d.compile_fits o
  have within : ∀ cue ∈ (d.compile o).cues, cue.Within 0 compiled.cursor := fun cue member =>
    fits.within cue (cues.mem_iff.mp member)
  obtain ⟨positive, reached, attained⟩ := foldl_schedule_duration (d.compile o).cues c.clear
    fun cue member => (within cue member).2.1
  have clear : c.clear.duration = 0 := ExactScalar.zero_eq
  rw [clear] at positive attained
  have length : (d.compile o).duration = compiled.cursor :=
    Timeline.duration_of_tiling (boundaries ▸ fits.tiling)
  rw [length]
  refine le_antisymm ?_ ?_
  · rcases attained with same | ⟨cue, member, same⟩
    · exact same.trans_le fits.tiling.nonneg
    · exact same.trans_le (within cue member).2.2
  · rcases fits.attained with same | ⟨cue, member, same⟩
    · exact same.trans_le positive
    · exact same ▸ reached cue (cues.mem_iff.mpr member)

end Clock

end Storyboard
