import Storyboard.Proofs.Playback.Course
import Storyboard.Proofs.Playback.Operation

/-!
# Playback without narration

A player that plays once and has nobody to speak to it, or is not to listen, waits for nothing:
every command keeps it `Silent`. Its walk enters the boundaries that have started, and nothing holds
it up before the end (`Silent.sync_eq`).
-/

namespace Storyboard

namespace Player

variable {T G σ : Type}

/-- The player plays once, and nothing is or was waited for. -/
structure Silent (p : Player T G σ) : Prop where
  once : p.looping = false
  mute : p.narrationActive = false
  idle : p.pending = none
  free : p.autoPaused = false
  untold : ∀ step, PlayerEvent.autoPaused step ∉ p.events

variable {p q : Player T G σ}

namespace Silent

theorem emit (h : p.Silent) {e : PlayerEvent T} (quiet : ∀ step, e ≠ .autoPaused step) :
    (p.emit e).Silent := by
  refine ⟨h.once, h.mute, h.idle, h.free, fun step member => ?_⟩
  rcases List.mem_append.mp member with old | new
  · exact h.untold step old
  · exact quiet step (List.mem_singleton.mp new).symm

theorem setState (h : p.Silent) (state : Transport) : (p.setState state).Silent := by
  have told := h.emit (e := .stateChanged state) (by simp)
  obtain ⟨_, same⟩ | ⟨_, same⟩ := p.setState_cases state
  · rwa [same]
  · rw [same]
    exact ⟨told.once, told.mute, told.idle, told.free, told.untold⟩

theorem mapNarrator (h : p.Silent) (f : σ → σ) : (p.mapNarrator f).Silent :=
  ⟨h.once, by simpa [Player.mapNarrator, narrationActive] using h.mute, h.idle, h.free, h.untold⟩

theorem render [Scalar T] [Scalar G] [Narrow T G] (h : p.Silent) : p.render.Silent := by
  obtain ⟨_, same⟩ := p.render_frame
  rw [same]
  exact ⟨h.once, h.mute, h.idle, h.free, h.untold⟩

theorem into (h : p.Silent) (index : Nat) (b : Boundary T) : ({ p with
    current := some index, events := p.events ++ [.stepChanged b.step index] } :
      Player T G σ).Silent := by
  have told := h.emit (e := .stepChanged b.step index) (by simp)
  exact ⟨told.once, told.mute, told.idle, told.free, told.untold⟩

theorem waitingAt?_eq [Scalar T] (h : p.Silent) (now : T) : p.waitingAt? now = none := by
  unfold waitingAt?
  rw [h.idle]
  rfl

variable [Narrator T σ]

/-! ### Entering boundaries -/

theorem speak_eq (h : p.Silent) (index : Nat) : p.speak index = { p with spoken := some index } := by
  have mute : p.utterance? index = none := by
    have silent := h.mute
    unfold utterance? narrationActive at *
    cases enabled : p.narrationEnabled with
    | false => rfl
    | true =>
      rw [enabled, Bool.true_and] at silent
      rw [Option.not_isSome_iff_eq_none.mp (Bool.eq_false_iff.mp silent)]
      cases p.boundary? index <;> simp
  obtain ⟨_, same⟩ | ⟨_, _, _, _, _, speaks, _⟩ | ⟨_, _, _, _, speaks, _⟩ := p.speak_cases index
  · rw [same, ← h.idle]
  · cases mute.symm.trans speaks
  · cases mute.symm.trans speaks

theorem enter_eq (h : p.Silent) (playing : p.state = .playing) {index : Nat} {b : Boundary T}
    (present : p.boundary? index = some b) :
    p.enter index = { p with
      current := some index, spoken := some index
      events := p.events ++ [.stepChanged b.step index] } := by
  rw [enter_of_some present]
  dsimp only
  rw [if_pos playing, (h.into index b).speak_eq]

theorem enter (h : p.Silent) (index : Nat) : (p.enter index).Silent := by
  cases present : p.boundary? index with
  | none => rwa [enter_of_none present]
  | some b =>
    have entered := h.into index b
    rw [enter_of_some present]
    dsimp only
    split
    · rw [entered.speak_eq]
      exact ⟨entered.once, entered.mute, entered.idle, entered.free, entered.untold⟩
    · exact entered

theorem enter? (h : p.Silent) (index : Option Nat) : (p.enter? index).Silent := by
  cases index with
  | none => exact h
  | some index => exact h.enter index

theorem pause (h : p.Silent) : p.pause.Silent := by
  have held : ({ p with autoPaused := false, clock := p.clock.pause } : Player T G σ).Silent :=
    ⟨h.once, h.mute, h.idle, rfl, h.untold⟩
  unfold Player.pause
  dsimp only
  split
  · exact ⟨h.once, h.mute, h.idle, rfl, h.untold⟩
  · exact (held.mapNarrator Narrator.pause).setState .paused

theorem enter_all (h : p.Silent) (entries : List (Boundary T × Nat)) :
    (entries.foldl (fun p e => p.enter e.2) p).Silent := by
  induction entries generalizing p with
  | nil => exact h
  | cons e entries ih => exact ih (h.enter e.2)

variable [Scalar T]

theorem leave (h : p.Silent) (time : T) : (p.leave time).Silent := by
  have left := h.mapNarrator Narrator.cancel
  exact ⟨left.once, left.mute, rfl, rfl, left.untold⟩

/-! ### The walk -/

variable [Scalar G]

theorem walk_eq (h : p.Silent) (now : T) (rest : List (Boundary T × Nat)) :
    walk now rest p = (((rest.takeWhile fun e => e.1.start ≤ now).foldl (fun p e => p.enter e.2)
      p).settle now) := by
  induction rest generalizing p with
  | nil => simp [walk, h.waitingAt?_eq]
  | cons e rest ih =>
    obtain ⟨next, index⟩ := e
    by_cases started : next.start ≤ now
    · simp [walk, h.waitingAt?_eq, started, ih (h.enter index)]
    · simp [walk, h.waitingAt?_eq, started]

theorem sync_eq (h : p.Silent) (now : T) : p.sync now =
    ((((p.timeline.boundaries.zipIdx.drop p.nextIndex).takeWhile fun e => e.1.start ≤ now).foldl
      (fun p e => p.enter e.2) p).settle now) :=
  h.walk_eq now _

theorem settle (h : p.Silent) (now : T) : (p.settle now).Silent := by
  have told := h.emit (e := .finished) (by simp)
  have held : ({ p.emit .finished with clock := (p.emit .finished).clock.pause } :
      Player T G σ).Silent := ⟨told.once, told.mute, told.idle, told.free, told.untold⟩
  unfold Player.settle finish
  split
  · dsimp only
    rw [if_neg (by simp [told.once])]
    exact held.setState .paused
  · exact h

theorem sync (h : p.Silent) (now : T) : (p.sync now).Silent := by
  rw [h.sync_eq]
  exact (h.enter_all _).settle now

/-! ### Commands -/

theorem stop (h : p.Silent) : p.stop.Silent := by
  have left := h.leave 0
  have held : ({ p.leave 0 with clock := (p.leave 0).clock.pause } : Player T G σ).Silent :=
    ⟨left.once, left.mute, left.idle, left.free, left.untold⟩
  have stopped := held.setState .stopped
  rw [stop_eq]
  exact ⟨stopped.once, stopped.mute, stopped.idle, stopped.free, stopped.untold⟩

theorem onNarrationEnd_eq [Narrow T G] (h : p.Silent) (token : Nat) : p.onNarrationEnd token = p :=
  if_pos (by simp [h.idle])

/-- The narrator may hear of the time; nothing else comes of it. -/
theorem advanceNarrator_eq [Narrow T G] (h : p.Silent) (elapsed : T) :
    ∃ narrator, p.advanceNarrator elapsed = { p with narrator } ∧
      ({ p with narrator } : Player T G σ).Silent := by
  have silent (narrator : Option σ) (same : narrator.isSome = p.narrator.isSome) :
      ({ p with narrator } : Player T G σ).Silent :=
    ⟨h.once, by simpa [narrationActive, same] using h.mute, h.idle, h.free, h.untold⟩
  cases attached : p.narrator with
  | none =>
    have same : p.advanceNarrator elapsed = p := by rw [advanceNarrator, attached]
    exact ⟨p.narrator, same, silent p.narrator rfl⟩
  | some narrator =>
    have heard := silent (some (Narrator.advance narrator elapsed).2) (by rw [attached]; rfl)
    refine ⟨_, ?_, heard⟩
    unfold advanceNarrator
    rw [attached]
    dsimp only
    split
    · exact heard.onNarrationEnd_eq _
    · rfl

variable [Narrow T G]

theorem play (h : p.Silent) : p.play.Silent := by
  by_cases playing : p.state = .playing
  · rwa [play_of_playing playing]
  · rw [play_of_resting playing]
    refine (Silent.sync ?_ _).render
    have starting : p.starting.Silent := by
      by_cases ended : p.duration ≤ p.time
      · have left := h.leave 0
        rw [starting_of_ended ended]
        exact ⟨left.once, left.mute, left.idle, left.free, left.untold⟩
      · rw [starting_of_going ended, if_neg (by simp [h.free])]
        exact h
    have going : ({ p.starting with clock := p.starting.clock.play } : Player T G σ).Silent :=
      ⟨starting.once, starting.mute, starting.idle, starting.free, starting.untold⟩
    have awake := (going.setState .playing).mapNarrator Narrator.resume
    unfold started
    dsimp only
    split
    · exact awake.enter? _
    · split
      · exact awake
      · rw [awake.speak_eq]
        exact ⟨awake.once, awake.mute, awake.idle, awake.free, awake.untold⟩

theorem seekTo (h : p.Silent) (time : T) (index : Option Nat) : (p.seekTo time index).Silent := by
  rw [seekTo_eq]
  refine (Silent.enter? ?_ index).render
  split
  · exact (h.leave time).setState .paused
  · exact h.leave time

theorem seekBoundary (h : p.Silent) (index : Nat) : (p.seekBoundary index).Silent := by
  unfold Player.seekBoundary
  split
  · exact h.seekTo _ _
  · exact h

theorem tick (h : p.Silent) (elapsed : T) : (p.tick elapsed).Silent := by
  obtain ⟨narrator, heard, silent⟩ := h.advanceNarrator_eq elapsed
  by_cases playing : (p.advanceNarrator elapsed).state = .playing
  · rw [tick_of_playing playing]
    have ticking : (p.ticking elapsed).Silent := by
      rw [ticking, heard]
      exact ⟨silent.once, silent.mute, silent.idle, silent.free, silent.untold⟩
    have synced := ticking.sync (p.ticking elapsed).time
    exact (synced.emit (by simp)).render
  · rw [tick_of_resting playing, heard]
    exact silent

theorem perform (h : p.Silent) (c : Command T) : (p.perform c).2.Silent := by
  cases c with
  | play => exact h.play
  | pause => exact h.pause
  | stop => exact h.stop
  | seek time => exact h.seekTo _ _
  | seekStep step =>
    show (p.seekStep step).2.Silent
    unfold seekStep
    split
    · exact h.seekBoundary _
    · exact h
  | nextStep =>
    show p.nextStep.2.Silent
    unfold nextStep
    split
    · exact h
    · exact h.seekBoundary _
  | previousStep =>
    show p.previousStep.2.Silent
    unfold previousStep
    split
    · exact h
    · exact h.seekBoundary _
  | setSpeed speed =>
    rw [perform_setSpeed]
    exact ⟨h.once, h.mute, h.idle, h.free, h.untold⟩
  | tick elapsed => exact h.tick elapsed
  | narrationEnd token =>
    show (p.onNarrationEnd token).Silent
    rwa [h.onNarrationEnd_eq]

theorem run (h : p.Silent) (commands : List (Command T)) : (p.run commands).Silent := by
  induction commands generalizing p with
  | nil => exact h
  | cons c rest ih => exact ih (h.perform c)

end Silent

theorem setUp_silent [Scalar T] [Scalar G] (captions : List Caption) (timeline : Timeline T G)
    (settings : List (Setting T G σ)) (once : (setUp captions timeline settings).looping = false)
    (mute : (setUp captions timeline settings).narrationActive = false) :
    (setUp captions timeline settings).Silent := by
  obtain ⟨_, control, events⟩ := setUp_rests captions timeline settings
  exact ⟨once, mute, congrArg Control.pending control, congrArg Control.autoPaused control,
    by simp [events]⟩

end Player

end Storyboard
