import Storyboard.Proofs.Playback.Performance

/-!
# What the screen shows

A command that moves the cursor, or that leaves or enters the stopped state, shows a frame at its
end, and no other part of it moves the cursor after that. So the screen shows the frame that is due
after every command of every run.
-/

namespace Storyboard

variable {T G σ : Type}

def Setting.layout? : Setting T G σ → Option (Layout G)
  | .screen s => some s.layout
  | _ => none

theorem Strides.never_stops {course : Course} {x y : Control} {es : List (PlayerEvent T)}
    (h : Strides course x es y) (moving : x.state ≠ .stopped) : y.state ≠ .stopped := by
  induction h with
  | nil => exact moving
  | snoc _ last ih =>
    cases last with
    | wait | finish => exact Transport.noConfusion
    | _ => exact ih

namespace Player

/-- What is shown, and the layout in which. No command changes either. -/
def scene (p : Player T G σ) : Timeline T G × Option (Layout G) :=
  (p.timeline, p.screen.map Screen.layout)

variable {p : Player T G σ}

@[simp] theorem setState_scene (p : Player T G σ) (state : Transport) :
    (p.setState state).scene = p.scene := by
  obtain ⟨_, same⟩ := p.setState_frame state
  rw [same]
  rfl

@[simp] theorem display_scene [Scalar G] (p : Player T G σ) (f : Frame T G) :
    (p.display f).scene = p.scene := by
  unfold display scene
  rw [Option.map_map]
  rfl

section

variable [Narrator T σ]

@[simp] theorem speak_scene (p : Player T G σ) (index : Nat) : (p.speak index).scene = p.scene := by
  obtain ⟨_, _, _, _, same⟩ := p.speak_frame index
  rw [same]
  rfl

@[simp] theorem enter_scene (p : Player T G σ) (index : Nat) : (p.enter index).scene = p.scene := by
  cases found : p.boundary? index with
  | none => rw [enter_of_none found]
  | some b =>
    obtain ⟨_, _, _, _, _, same⟩ := enter_frame found
    rw [same]
    rfl

@[simp] theorem enter?_scene (p : Player T G σ) (index : Option Nat) :
    (p.enter? index).scene = p.scene := by
  cases index with
  | none => rfl
  | some index => exact p.enter_scene index

variable [Scalar T]

theorem Rounds.scene {now : T} {n : Nat} {p q : Player T G σ} (h : Rounds now n p q) :
    q.scene = p.scene := by
  induction h with
  | zero => rfl
  | succ round _ ih =>
    obtain ⟨_, _, _, _, rfl⟩ := round?_eq_some_iff.mp round
    rw [ih, enter_scene]

variable [Scalar G]

@[simp] theorem rewind_scene (p : Player T G σ) : p.rewind.scene = p.scene :=
  display_scene _ _

theorem finish_scene (playing : p.state = .playing) : p.finish.scene = p.scene := by
  cases loops : p.looping with
  | false =>
    rw [finish_once p playing loops]
    rfl
  | true =>
    rw [finish_again p loops, enter?_scene]
    exact (p.emit .finished).rewind_scene

theorem sync_scene (playing : p.state = .playing) (now : T) : (p.sync now).scene = p.scene := by
  obtain ⟨_, q, _, rounds, _, result⟩ := p.sync_rounds now
  have still := (rounds.follows playing).1
  rw [result, ← rounds.scene]
  unfold conclude settle
  split
  · rename_i b _
    rw [autoPause_eq q b still]
    rfl
  · split
    · exact finish_scene still
    · rfl

theorem sync_moves (playing : p.state = .playing) (now : T) : (p.sync now).state ≠ .stopped := by
  obtain ⟨_, walked⟩ := p.sync_follows now playing
  have moving : p.state ≠ .stopped := by simp [playing]
  exact walked.strides.never_stops moving

theorem started_scene (resting : p.starting.state ≠ .playing) : p.started.scene = p.scene := by
  have starting : p.starting.scene = p.scene := by
    by_cases ended : p.duration ≤ p.time
    · rw [starting_of_ended ended, rewind_scene]
    · rw [starting_of_going ended]
      split <;> rfl
  have awake : p.awake.scene = p.scene := starting
  rw [started_eq resting]
  split
  · rw [enter?_scene, awake]
  · split
    · exact awake
    · rw [speak_scene, awake]

end

variable [Scalar T] [Scalar G] [Narrow T G]

/-- The frame that is to be seen: the one at the cursor, or before any cue the initial one. -/
def due (p : Player T G σ) : Frame T G :=
  if p.state = .stopped then p.timeline.initialFrame else p.frame

structure UpToDate (p : Player T G σ) : Prop where
  frame : ∀ s, p.screen = some s → s.lastFrame = some p.due
  viewport : ∀ s, p.screen = some s → s.lastViewport = p.due.viewport? s.layout

theorem UpToDate.congr {q : Player T G σ} (h : p.UpToDate) (screen : q.screen = p.screen)
    (due : q.due = p.due) : q.UpToDate := by
  refine ⟨?_, ?_⟩
  · rw [screen, due]
    exact h.frame
  · rw [screen, due]
    exact h.viewport

theorem upToDate_of_none (dark : p.screen = none) : p.UpToDate := by
  have absent : ∀ s, p.screen ≠ some s := by simp [dark]
  exact ⟨fun s shown => absurd shown (absent s), fun s shown => absurd shown (absent s)⟩

/-! ### Showing frames -/

theorem display_upToDate {f : Frame T G} (due : p.due = f) : (p.display f).UpToDate := by
  subst due
  constructor
  · intro s shown
    obtain ⟨before, _, rfl⟩ := Option.map_eq_some_iff.mp shown
    rfl
  · intro s shown
    obtain ⟨before, _, rfl⟩ := Option.map_eq_some_iff.mp shown
    rfl

theorem render_upToDate (moving : p.state ≠ .stopped) : p.render.UpToDate := by
  have due : p.due = p.frame := if_neg moving
  unfold render
  cases shown : p.screen with
  | some s => exact display_upToDate due
  | none => exact upToDate_of_none shown

@[simp] theorem render_scene (p : Player T G σ) : p.render.scene = p.scene := by
  unfold render
  split
  · exact p.display_scene p.frame
  · rfl

/-! ### Setting up -/

theorem setSpeed_upToDate (h : p.UpToDate) (speed : T) :
    { p with clock := p.clock.setSpeed speed }.UpToDate := by
  obtain ⟨_, same⟩ := setSpeed_frame p.clock speed
  rw [same]
  exact h.congr rfl rfl

omit [Narrow T G] in
theorem configure_scene (p : Player T G σ) (s : Setting T G σ) :
    (p.configure s).scene = (p.timeline, s.layout?.or (p.screen.map Screen.layout)) := by
  cases s with
  | screen screen => exact display_scene { p with screen := some screen } p.timeline.initialFrame
  | speed speed =>
    rw [configure, withSpeed_eq]
    rfl
  | _ => rfl

theorem configure_upToDate (stopped : p.state = .stopped) (h : p.UpToDate) (s : Setting T G σ) :
    (p.configure s).UpToDate := by
  cases s with
  | screen screen => exact display_upToDate (if_pos stopped)
  | speed speed =>
    rw [configure, withSpeed_eq]
    exact setSpeed_upToDate h speed
  | _ => exact h.congr rfl rfl

theorem setUp_shows (captions : List Caption) (timeline : Timeline T G)
    (settings : List (Setting T G σ)) :
    (setUp captions timeline settings).scene =
        (timeline, (settings.filterMap Setting.layout?).getLast?) ∧
      (setUp captions timeline settings).UpToDate := by
  induction settings using List.reverseRecOn with
  | nil => exact ⟨rfl, upToDate_of_none rfl⟩
  | append_singleton settings s ih =>
    obtain ⟨scene, upToDate⟩ := ih
    have stopped : (setUp captions timeline settings).state = .stopped :=
      congrArg Control.state (setUp_rests captions timeline settings).2.1
    have added : setUp captions timeline (settings ++ [s]) =
        (setUp captions timeline settings).configure s := List.foldl_append
    rw [added]
    obtain ⟨same, layout⟩ := Prod.mk.inj scene
    refine ⟨?_, configure_upToDate stopped upToDate s⟩
    rw [configure_scene, same, layout, List.filterMap_append, List.getLast?_append]
    cases attached : s.layout? <;> simp [attached]

/-! ### Commands -/

/-- `q` shows what is due, and the same scene as `p`. -/
structure Shows (p q : Player T G σ) : Prop where
  scene : q.scene = p.scene
  upToDate : q.UpToDate

theorem UpToDate.shows (h : p.UpToDate) : Shows p p := ⟨rfl, h⟩

variable [Narrator T σ]

/-- A player that walks shows where the walk has come to. -/
theorem walk_shows {q : Player T G σ} (same : q.scene = p.scene) (playing : q.state = .playing) :
    Shows p (q.sync q.time).render where
  scene := by rw [render_scene, sync_scene playing, same]
  upToDate := render_upToDate (sync_moves playing q.time)

theorem play_shows (h : p.UpToDate) : Shows p p.play := by
  by_cases playing : p.state = .playing
  · rw [play_of_playing playing]
    exact h.shows
  · have resting : p.starting.state ≠ .playing := by rwa [(p.starting_runs playing).1]
    rw [play_of_resting playing]
    exact walk_shows (started_scene resting) (started_follows resting).1

theorem pause_shows (h : p.UpToDate) : Shows p p.pause := by
  unfold pause
  dsimp only
  split
  · exact ⟨rfl, h.congr rfl rfl⟩
  · rename_i moving
    have held : ∃ events, (({ p with autoPaused := false, clock := p.clock.pause } :
        Player T G σ).mapNarrator Narrator.pause).setState .paused = { p with
          autoPaused := false, clock := p.clock.pause, narrator := p.narrator.map Narrator.pause
          state := .paused, events } := setState_frame _ _
    obtain ⟨_, same⟩ := held
    -- The cursor is where it was, and the player was not stopped before either.
    have due : p.due = p.frame := if_neg moving
    rw [same]
    exact ⟨rfl, h.congr rfl due.symm⟩

theorem stop_shows (p : Player T G σ) : Shows p p.stop := by
  rw [stop_eq]
  refine ⟨?_, display_upToDate ?_⟩
  · rw [display_scene, setState_scene]
    rfl
  · rw [due, setState_state, if_pos rfl, setState_timeline]
    rfl

theorem seekTo_shows (p : Player T G σ) (time : T) (index : Option Nat) :
    Shows p (p.seekTo time index) := by
  rw [seekTo_eq]
  constructor
  · rw [render_scene, enter?_scene]
    split
    · rw [setState_scene]
      rfl
    · rfl
  · refine render_upToDate ?_
    rw [enter?_state]
    split
    · rw [setState_state]
      exact Transport.noConfusion
    · assumption

theorem seekBoundary_shows (h : p.UpToDate) (index : Nat) : Shows p (p.seekBoundary index) := by
  unfold seekBoundary
  split
  · exact p.seekTo_shows _ _
  · exact h.shows

theorem onNarrationEnd_shows (h : p.UpToDate) (token : Nat) : Shows p (p.onNarrationEnd token) := by
  obtain ⟨_, same⟩ | ⟨_, _, same⟩ | ⟨_, _, same⟩ := p.onNarrationEnd_cases token
  · rw [same]
    exact h.shows
  · rw [same]
    exact ⟨rfl, h.congr rfl rfl⟩
  · rw [same]
    exact walk_shows (setState_scene _ _) (setState_state _ _)

theorem tick_shows (h : p.UpToDate) (elapsed : T) : Shows p (p.tick elapsed) := by
  have heard : Shows p (p.advanceNarrator elapsed) := by
    obtain ⟨narrator, _, same⟩ | ⟨token, narrator, _, same⟩ := p.advanceNarrator_cases elapsed
    · rw [same]
      exact ⟨rfl, h.congr rfl rfl⟩
    · have spoken : { p with narrator }.UpToDate := h.congr rfl rfl
      obtain ⟨scene, upToDate⟩ := onNarrationEnd_shows spoken token
      rw [same]
      exact ⟨scene, upToDate⟩
  by_cases playing : (p.advanceNarrator elapsed).state = .playing
  · have ticking : (p.ticking elapsed).state = .playing := playing
    rw [tick_of_playing playing]
    constructor
    · rw [render_scene]
      exact (sync_scene ticking _).trans heard.scene
    · exact render_upToDate (sync_moves ticking _)
  · rw [tick_of_resting playing]
    exact heard

theorem perform_shows (h : p.UpToDate) (c : Command T) : Shows p (p.perform c).2 := by
  cases c with
  | play => exact play_shows h
  | pause => exact pause_shows h
  | stop => exact p.stop_shows
  | seek time => exact p.seekTo_shows _ _
  | seekStep step =>
    show Shows p (p.seekStep step).2
    unfold seekStep
    split
    · exact seekBoundary_shows h _
    · exact h.shows
  | nextStep =>
    show Shows p p.nextStep.2
    unfold nextStep
    split
    · exact h.shows
    · exact seekBoundary_shows h _
  | previousStep =>
    show Shows p p.previousStep.2
    unfold previousStep
    split
    · exact h.shows
    · exact seekBoundary_shows h _
  | setSpeed speed =>
    rw [perform_setSpeed]
    exact ⟨rfl, setSpeed_upToDate h speed⟩
  | tick elapsed => exact tick_shows h elapsed
  | narrationEnd token => exact onNarrationEnd_shows h token

/-! ### Runs -/

theorem run_shows (h : p.UpToDate) (commands : List (Command T)) : Shows p (p.run commands) := by
  induction commands using List.reverseRecOn with
  | nil => exact h.shows
  | append_singleton commands c ih =>
    obtain ⟨scene, upToDate⟩ := perform_shows ih.upToDate c
    rw [run_snoc]
    exact ⟨scene.trans ih.scene, upToDate⟩

/-- After every command the screen shows the frame at the cursor, or the initial frame where the
player is stopped, and shows it in the viewport of its camera. -/
theorem screen_never_stale (captions : List Caption) (timeline : Timeline T G)
    (settings : List (Setting T G σ)) (commands : List (Command T)) :
    let p := (setUp captions timeline settings).run commands
    let due := if p.state = .stopped then timeline.initialFrame else timeline.sample p.time
    p.screen.map Screen.layout = (settings.filterMap Setting.layout?).getLast? ∧
      ∀ s, p.screen = some s →
        s.lastFrame = some due ∧ s.lastViewport = due.viewport? s.layout := by
  intro p due
  obtain ⟨initial, upToDate⟩ := setUp_shows captions timeline settings
  have shows : Shows _ p := run_shows upToDate commands
  obtain ⟨same, layout⟩ := Prod.mk.inj (shows.scene.trans initial)
  have shown : p.due = due := by rw [Player.due, frame, same]
  refine ⟨layout, fun s present => ?_⟩
  rw [← shown]
  exact ⟨shows.upToDate.frame s present, shows.upToDate.viewport s present⟩

end Player

end Storyboard
