import Storyboard.Proofs.Playback.Position

/-!
# The gate of narration

Every command keeps the cursor, the current boundary and the utterance that is waited for together.
So the cursor never passes the end of a step whose narration is not complete.
-/

namespace Storyboard

namespace Player

variable {T G σ : Type} [ExactScalar T] [Scalar G] {p : Player T G σ}

/-! ### Setting up -/

theorem setUp_aligned [Narrow T G] (d : Diagram T G) (o : CompileOptions G) (captions : List Caption)
    (settings : List (Setting T G σ)) : (setUp captions (d.compile o) settings).Aligned := by
  rw [setUp]
  induction settings using List.reverseRecOn with
  | nil =>
    have tiled := d.compile_tiled o
    have length := Clock.idle.install_duration d o
    have speed := (Clock.idle : Clock T G).install_speed (d.compile o)
    refine ⟨⟨tiled, length, ?_, ?_, ?_, ?_⟩, ⟨?_, ?_⟩, ?_, ?_⟩
    · have idle : (Clock.idle : Clock T G).speed = 1 := ExactScalar.one_eq
      exact zero_lt_one.trans_eq (speed.trans idle).symm
    · have mem := (Clock.idle.install (d.compile o)).pause.seek_mem (@OfNat.ofNat T 0 Scalar.instOfNat)
      have same : (Clock.idle.install (d.compile o)).pause.duration = (d.compile o).duration := length
      rw [same] at mem
      exact mem (Tiling.nonneg tiled)
    · intro i current
      cases current
    · intro pending
      cases pending
    · intro going
      cases going
    · intro playing
      cases playing
    · intro i b current
      cases current
    · intro waits
      cases waits
  | append_singleton settings s ih =>
    rw [List.foldl_append]
    cases s with
    | speed speed =>
      rw [List.foldl_cons, configure, withSpeed_eq]
      exact setSpeed_aligned ih speed
    | _ => exact ih

theorem setUp_time [Narrow T G] (d : Diagram T G) (o : CompileOptions G) (captions : List Caption)
    (settings : List (Setting T G σ)) : (setUp captions (d.compile o) settings).time = 0 := by
  rw [setUp]
  induction settings using List.reverseRecOn with
  | nil =>
    have length := (Clock.idle : Clock T G).install_duration d o
    exact Clock.seek_zero ((Tiling.nonneg (d.compile_tiled o)).trans_eq length.symm)
  | append_singleton settings s ih =>
    rw [List.foldl_append]
    cases s with
    | speed speed =>
      obtain ⟨_, same⟩ := setSpeed_frame
        (settings.foldl configure (ofTimeline captions (d.compile o))).clock speed
      rw [List.foldl_cons, configure, withSpeed_eq, same]
      exact ih
    | _ => exact ih

/-! ### Commands -/

variable [Narrator T σ]

theorem stop_aligned (h : p.Aligned) : p.stop.Aligned := by
  rw [stop_eq]
  exact setState_aligned (p := { p.leave _ with clock := (p.leave _).clock.pause })
    ((leave_aligned h _).hold false) (fun _ _ current => nomatch current) (by decide) rfl rfl

theorem starting_aligned (h : p.Aligned) : p.starting.Aligned := by
  by_cases ended : p.duration ≤ p.time
  · rw [starting_of_ended ended]
    exact rewind_aligned h
  · rw [starting_of_going ended]
    split
    · exact { h with
        speaking := fun speaking => nomatch speaking
        waiting := fun waits => nomatch waits }
    · exact h

theorem started_travels (h : p.starting.Aligned) (resting : p.starting.state ≠ .playing)
    (free : p.starting.autoPaused = false) : p.started.Travels := by
  have awake : p.awake.Travels :=
    ⟨⟨h.tiled, h.length, h.forward, h.inside, h.started, h.speaking⟩, rfl, rfl, free⟩
  rw [started_eq resting]
  split
  · cases found : p.awake.timeline.boundaryAt? p.awake.time with
    | none => exact awake
    | some i =>
      obtain ⟨b, present, started, _⟩ := boundaryAt?_here awake.toPlacement found
      exact (enter_travels awake present started).1
  · rename_i index current
    split
    · exact awake
    · have placed := speak_placed awake.toPlacement current
      obtain ⟨_, _, _, _, same⟩ := p.awake.speak_frame index
      rw [same] at placed ⊢
      exact ⟨placed, rfl, rfl, free⟩

variable [Narrow T G]

theorem seekTo_aligned (h : p.Aligned) {time : T} {index : Option Nat}
    (holds : ∀ i, index = some i → ∃ b, p.boundary? i = some b ∧
      b.start ≤ (p.clock.seek time).time ∧ (p.clock.seek time).time ≤ b.stop) :
    (p.seekTo time index).Aligned := by
  have left := leave_aligned h time
  rw [seekTo_eq]
  refine render_aligned ?_
  split
  · rename_i stopped
    have still : p.clock.playing = false := by
      rw [Bool.eq_false_iff]
      intro going
      have playing : p.state = .playing := h.going.mp going
      rw [stopped] at playing
      cases playing
    have rested : ((p.leave time).setState .paused).Aligned :=
      setState_aligned left.toPlacement left.reached (by decide) still rfl
    obtain ⟨_, same⟩ := (p.leave time).setState_frame .paused
    rw [same] at rested ⊢
    exact enter?_aligned rested rfl rfl holds
  · exact enter?_aligned left rfl rfl holds

theorem seek_aligned (h : p.Aligned) (time : T) : (p.seek time).Aligned := by
  have mem := Timeline.cut_mem h.tiled time
  have there : (p.clock.seek (p.timeline.cut time)).time = p.timeline.cut time :=
    Clock.seek_time mem.1 (mem.2.trans_eq h.length.symm)
  have same : p.seek time =
      p.seekTo (p.timeline.cut time) (p.timeline.boundaryAt? (p.timeline.cut time)) := by
    simp [seek]
  rw [same]
  refine seekTo_aligned h fun i found => ?_
  obtain ⟨b, present, started, going⟩ := Timeline.boundaryAt?_holds h.tiled found
  rw [Timeline.cut_of_mem mem.1 mem.2] at started going
  rw [there]
  exact ⟨b, present, started, going⟩

theorem seekBoundary_aligned (h : p.Aligned) {i : Nat} {b : Boundary T}
    (present : p.boundary? i = some b) : (p.seekTo b.start (some i)).Aligned := by
  have bounds := Tiling.bounds h.tiled present
  have time : (p.clock.seek b.start).time = b.start :=
    Clock.seek_time bounds.1 ((bounds.2.1.trans bounds.2.2).trans_eq h.length.symm)
  refine seekTo_aligned h ?_
  rintro _ ⟨⟩
  rw [time]
  exact ⟨b, present, le_refl _, bounds.2.1⟩

theorem onNarrationEnd_aligned (h : p.Aligned) (token : Nat) :
    (p.onNarrationEnd token).Aligned := by
  obtain ⟨_, same⟩ | ⟨_, free, same⟩ | ⟨awaited, waiting, same⟩ := p.onNarrationEnd_cases token
  · rw [same]
    exact h
  · rw [same]
    exact { h with
      speaking := fun speaking => nomatch speaking
      waiting := fun waits => nomatch free.symm.trans waits }
  · rw [same]
    exact render_aligned (sync_aligned (resuming_travels h waiting))

theorem play_aligned (h : p.Aligned) : p.play.Aligned := by
  by_cases playing : p.state = .playing
  · rw [play_of_playing playing]
    exact h
  · obtain ⟨state, free, _⟩ := p.starting_runs playing
    rw [play_of_resting playing]
    exact render_aligned (sync_aligned (started_travels (starting_aligned h) (by rwa [state]) free))

theorem advanceNarrator_aligned (h : p.Aligned) (elapsed : T) :
    (p.advanceNarrator elapsed).Aligned := by
  obtain ⟨narrator, _, same⟩ | ⟨token, narrator, _, same⟩ := p.advanceNarrator_cases elapsed
  · rw [same]
    exact h
  · rw [same]
    exact onNarrationEnd_aligned (p := { p with narrator }) h token

theorem ticking_travels {elapsed : T} (h : (p.advanceNarrator elapsed).Aligned)
    (playing : (p.advanceNarrator elapsed).state = .playing) : (p.ticking elapsed).Travels := by
  have mem := (p.advanceNarrator elapsed).clock.advance_mem elapsed h.forward
    (h.inside.2.trans_eq h.length.symm)
  obtain ⟨time, same⟩ := (p.advanceNarrator elapsed).clock.advance_frame elapsed
  rw [same, h.length] at mem
  rw [ticking, same]
  exact ⟨h.toPlacement.later mem.1 mem.2, playing, h.going.mpr playing, h.free playing⟩

theorem tick_aligned (h : p.Aligned) (elapsed : T) : (p.tick elapsed).Aligned := by
  have advanced := advanceNarrator_aligned h elapsed
  by_cases playing : (p.advanceNarrator elapsed).state = .playing
  · rw [tick_of_playing playing]
    exact render_aligned (sync_aligned (ticking_travels advanced playing))
  · rw [tick_of_resting playing]
    exact advanced

theorem navigate_aligned (h : p.Aligned) (c : Command T)
    (navigates : (∃ step, c = .seekStep step) ∨ c = .nextStep ∨ c = .previousStep) :
    (p.perform c).2.Aligned := by
  obtain ⟨_, same⟩ | ⟨_, index, b, present, same⟩ :=
    p.navigate_cases c navigates h.toPlacement.placed
  · rw [same]
    exact h
  · rw [same]
    exact seekBoundary_aligned h present

theorem perform_aligned (h : p.Aligned) (c : Command T) : (p.perform c).2.Aligned := by
  cases c with
  | play => exact play_aligned h
  | pause => exact pause_aligned h
  | stop => exact stop_aligned h
  | seek time => exact seek_aligned h time
  | seekStep step => exact navigate_aligned h _ (.inl ⟨step, rfl⟩)
  | nextStep => exact navigate_aligned h _ (.inr (.inl rfl))
  | previousStep => exact navigate_aligned h _ (.inr (.inr rfl))
  | setSpeed speed =>
    rw [perform_setSpeed]
    exact setSpeed_aligned h speed
  | tick elapsed => exact tick_aligned h elapsed
  | narrationEnd token => exact onNarrationEnd_aligned h token

theorem run_aligned (h : p.Aligned) (commands : List (Command T)) : (p.run commands).Aligned := by
  induction commands generalizing p with
  | nil => exact h
  | cons c rest ih => exact ih (perform_aligned h c)

/-! ### Runs -/

theorem setUp_run_aligned (d : Diagram T G) (o : CompileOptions G) (captions : List Caption)
    (settings : List (Setting T G σ)) (commands : List (Command T)) :
    ((setUp captions (d.compile o) settings).run commands).timeline = d.compile o ∧
      ((setUp captions (d.compile o) settings).run commands).Aligned := by
  obtain ⟨same, control, _⟩ := setUp_rests captions (d.compile o) settings
  refine ⟨(run_runs (sound_of_initial control) commands).timeline.trans same, ?_⟩
  exact run_aligned (setUp_aligned d o captions settings) commands

/-- The cursor does not pass the end of a step whose narration is not complete, a player that waits
for it stands there, and the clock goes exactly while the player plays. -/
theorem narration_gate (d : Diagram T G) (o : CompileOptions G) (captions : List Caption)
    (settings : List (Setting T G σ)) (commands : List (Command T)) :
    let p := (setUp captions (d.compile o) settings).run commands
    (p.pending.isSome = true → ∃ i b, p.current = some i ∧ p.spoken = some i ∧
      (d.compile o).boundaries[i]? = some b ∧ p.time ≤ b.stop) ∧
    (p.autoPaused = true → p.state = .paused ∧ p.pending.isSome = true ∧
      ∃ i b, p.current = some i ∧ (d.compile o).boundaries[i]? = some b ∧ p.time = b.stop) ∧
    (p.clock.playing = true ↔ p.state = .playing) := by
  intro p
  obtain ⟨timeline, aligned⟩ : p.timeline = d.compile o ∧ p.Aligned :=
    setUp_run_aligned d o captions settings commands
  rw [← timeline]
  have speaks : p.pending.isSome = true → ∃ i b, p.current = some i ∧ p.spoken = some i ∧
      p.timeline.boundaries[i]? = some b := by
    intro pending
    obtain ⟨present, spoken⟩ := aligned.speaking pending
    obtain ⟨i, current⟩ := Option.isSome_iff_exists.mp present
    obtain ⟨b, found, _⟩ := aligned.started i current
    exact ⟨i, b, current, spoken.trans current, found⟩
  refine ⟨?_, ?_, aligned.going⟩
  · intro pending
    obtain ⟨i, b, current, spoken, found⟩ := speaks pending
    exact ⟨i, b, current, spoken, found, aligned.reached i b current found⟩
  · intro waits
    obtain ⟨paused, pending, ended⟩ := aligned.waiting waits
    obtain ⟨i, b, current, _, found⟩ := speaks pending
    exact ⟨paused, pending, i, b, current, found, ended i b current found⟩

end Player

end Storyboard
