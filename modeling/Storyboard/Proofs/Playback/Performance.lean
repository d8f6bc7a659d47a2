import Storyboard.Proofs.Playback.Course
import Storyboard.Proofs.Playback.Operation

/-!
# What a command does to the control

The walk over the boundaries makes strides alone (`sync_follows`), and every command makes acts
that put its marks into the log (`perform_runs`). So the log of a run is what the acts of the run
put into it: `run_runs`.
-/

namespace Storyboard

variable {T G σ : Type}

/-- The commands that may walk over the boundaries. -/
def Command.walks : Command T → Bool
  | .play | .tick _ | .narrationEnd _ => true
  | .pause | .stop | .seek _ | .seekStep _ | .nextStep | .previousStep | .setSpeed _ => false

namespace Player

variable [Narrator T σ]

/-! ### Entering boundaries -/

theorem speak_follows (p : Player T G σ) (index : Nat) (playing : p.state = .playing) :
    ∃ es, Follows p es (p.speak index) ∧ Quiet es := by
  have mute : Stride p.course p.control ([] : List (PlayerEvent T))
      { p.control with spoken := some index, pending := none } := .mute p.control index playing
  obtain ⟨_, same⟩ | ⟨_, _, _, _, _, _, _, same⟩ | ⟨step, _, _, _, _, _, same⟩ :=
    p.speak_cases index
  · rw [same]
    exact ⟨_, ⟨rfl, rfl, (List.append_nil _).symm, mute.strides⟩, .nil⟩
  · rw [same]
    exact ⟨_, ⟨rfl, rfl, (List.append_nil _).symm, .snoc mute.strides (.refuse _ playing rfl)⟩, .nil⟩
  · rw [same]
    exact ⟨_, ⟨rfl, rfl, rfl, .snoc mute.strides (.speak _ step playing rfl)⟩, by simp [Quiet]⟩

theorem enter_follows (p : Player T G σ) (index : Nat)
    (next : ∀ j, p.current = some j → index = j + 1) :
    ∃ es, Follows p es (p.enter index) ∧ Quiet es := by
  cases found : p.boundary? index with
  | none => rw [enter_of_none found]; exact ⟨_, .refl p, .nil⟩
  | some b =>
    rw [enter_of_some found]
    have entered : Follows p [.stepChanged b.step index] { p with
        current := some index, events := p.events ++ [.stepChanged b.step index] } :=
      ⟨rfl, rfl, rfl, (Stride.enter p.control b.step index next (boundary?_lt found)).strides⟩
    have quiet : Quiet ([.stepChanged b.step index] : List (PlayerEvent T)) := by simp [Quiet]
    dsimp only
    split
    · rename_i playing
      obtain ⟨es, spoken, calm⟩ := speak_follows { p with
        current := some index, events := p.events ++ [.stepChanged b.step index] } index playing
      exact ⟨_, entered.trans spoken, quiet.append calm⟩
    · exact ⟨_, entered, quiet⟩

theorem enter?_follows (p : Player T G σ) (index : Option Nat) (away : p.current = none) :
    ∃ es, Follows p es (p.enter? index) ∧ Quiet es := by
  cases index with
  | none => exact ⟨_, .refl p, .nil⟩
  | some index => exact p.enter_follows index (by simp [away])

/-! ### The walk -/

variable [Scalar T]

theorem Rounds.follows {now : T} {n : Nat} {p q : Player T G σ} (h : Rounds now n p q)
    (playing : p.state = .playing) : q.state = .playing ∧ ∃ es, Follows p es q ∧ Quiet es := by
  induction h with
  | zero p => exact ⟨playing, _, .refl p, .nil⟩
  | @succ _ p _ _ round _ ih =>
    obtain ⟨_, _, _, _, rfl⟩ := round?_eq_some_iff.mp round
    obtain ⟨es, entered, quiet⟩ := p.enter_follows p.nextIndex fun _ => nextIndex_of_current
    obtain ⟨still, fs, rest, calm⟩ := ih (by rw [enter_state]; exact playing)
    exact ⟨still, _, entered.trans rest, quiet.append calm⟩

section

variable [Scalar G]

theorem finish_follows (p : Player T G σ) (playing : p.state = .playing) :
    ∃ es, Follows p (.finished :: es) p.finish ∧ .finished ∉ es := by
  cases loops : p.looping with
  | false =>
    rw [finish_once p playing loops]
    exact ⟨_, ⟨rfl, rfl, rfl, (Stride.finish p.control playing loops).strides⟩, by simp⟩
  | true =>
    rw [finish_again p loops]
    have back : Follows p [.finished] { (p.emit .finished).rewind with
        clock := (p.emit .finished).rewind.clock.play } :=
      ⟨rfl, rfl, rfl, (Stride.again p.control playing loops).strides⟩
    obtain ⟨es, entered, quiet⟩ := enter?_follows { (p.emit .finished).rewind with
      clock := (p.emit .finished).rewind.clock.play } (p.timeline.boundaryAt? 0) rfl
    exact ⟨es, back.trans entered, quiet.2⟩

/-- The timeline is told to be finished once at most, and only where it is over. -/
theorem conclude_follows (p : Player T G σ) (now : T) (playing : p.state = .playing) :
    ∃ es, Follows p es (p.conclude now) ∧ (.finished ∈ es → p.conclude now = p.finish ∧
      p.waitingAt? now = none ∧ p.duration ≤ now ∧ ∃ fs, es = .finished :: fs ∧ .finished ∉ fs) := by
  unfold conclude settle
  split
  · rename_i b waits
    rw [autoPause_eq p b playing]
    have speaking := (waitingAt?_eq_some_iff.mp waits).1
    exact ⟨_, ⟨rfl, rfl, rfl, (Stride.wait p.control b.step playing speaking).strides⟩, by simp⟩
  · rename_i moving
    split
    · rename_i reached
      obtain ⟨es, finished, once⟩ := finish_follows p playing
      exact ⟨_, finished, fun _ => ⟨rfl, moving, reached, es, rfl, once⟩⟩
    · exact ⟨_, .refl p, by simp⟩

theorem sync_follows (p : Player T G σ) (now : T) (playing : p.state = .playing) :
    ∃ es, Follows p es (p.sync now) := by
  obtain ⟨n, q, _, rounds, _, result⟩ := p.sync_rounds now
  obtain ⟨still, es, walked, _⟩ := rounds.follows playing
  obtain ⟨fs, concluded, _⟩ := q.conclude_follows now still
  rw [result]
  exact ⟨_, walked.trans concluded⟩

theorem started_follows {p : Player T G σ} (resting : p.starting.state ≠ .playing) :
    p.started.state = .playing ∧ ∃ es, Follows p.awake es p.started ∧ Quiet es := by
  rw [started_eq resting]
  split
  · rename_i away
    refine ⟨?_, p.awake.enter?_follows _ away⟩
    rw [enter?_state]
    rfl
  · split
    · exact ⟨rfl, _, .refl _, .nil⟩
    · refine ⟨?_, p.awake.speak_follows _ rfl⟩
      obtain ⟨_, _, _, _, same⟩ := p.awake.speak_frame _
      rw [same]
      rfl

end

/-! ### Jumps -/

theorem leave_runs (p : Player T G σ) (time : T) : Runs p [.jumped] (p.leave time) :=
  ⟨rfl, rfl, (List.append_nil _).symm, .single (.jump p.control)⟩

theorem called_leave_runs (p : Player T G σ) (c : Command T) (time : T)
    (leaves : c = .stop ∨ ∃ time, c = .seek time) : Runs p [.called c, .jumped] (p.leave time) :=
  ⟨rfl, rfl, (List.append_nil _).symm, .single (.leave p.control c leaves)⟩

variable [Scalar G] [Narrow T G]

theorem stop_answers (p : Player T G σ) :
    ∃ es, Answers p (p.opening .stop) es p.stop ∧ Quiet es := by
  have left := (p.called_leave_runs .stop 0 (.inl rfl)).answers
  have held : Answers p [.called .stop, .jumped] []
      { p.leave 0 with clock := (p.leave 0).clock.pause } := left.congr rfl rfl rfl rfl
  obtain ⟨es, stopped, quiet⟩ := held.setState .stopped (by decide) rfl .nil
  rw [stop_eq]
  exact ⟨es, stopped.congr rfl rfl rfl rfl, quiet⟩

theorem pause_answers (p : Player T G σ) :
    ∃ es, Answers p (p.opening .pause) es p.pause ∧ Quiet es := by
  have freed : Answers p [.called .pause] [] { p with autoPaused := false } :=
    ⟨rfl, rfl, (List.append_nil _).symm, .single (.callPause p.control)⟩
  rw [pause]
  split
  · exact ⟨[], freed, .nil⟩
  · have held : Answers p [.called .pause] [] ({ p with
        autoPaused := false, clock := p.clock.pause }.mapNarrator Narrator.pause) :=
      freed.congr rfl rfl rfl rfl
    exact held.setState .paused (by decide) rfl .nil

theorem seekTo_answers {p : Player T G σ} {opening : List (Mark T)} {time : T}
    (left : Runs p opening (p.leave time)) (index : Option Nat) :
    ∃ es, Answers p opening es (p.seekTo time index) ∧ Quiet es := by
  obtain ⟨es, arrived, quiet⟩ : ∃ es, Answers p opening es
      (if p.state = .stopped then (p.leave time).setState .paused else p.leave time) ∧
        Quiet es := by
    split
    · exact left.answers.setState .paused (by decide) rfl .nil
    · exact ⟨[], left.answers, .nil⟩
  rw [seekTo_eq]
  have away : (if p.state = .stopped then (p.leave time).setState .paused
      else p.leave time).current = none := by
    split
    · exact setState_current _ _
    · rfl
  obtain ⟨fs, entered, calm⟩ := enter?_follows _ index away
  exact ⟨es ++ fs, (arrived.follows entered).render, quiet.append calm⟩

/-! ### Completions -/

theorem onNarrationEnd_answers (p : Player T G σ) (token : Nat)
    (rest : p.autoPaused = true → p.state = .paused) :
    ∃ es, Answers p [.delivered token] es (p.onNarrationEnd token) ∧
      (.stateChanged .playing ∈ es → p.Resumes token es) := by
  obtain ⟨stale, same⟩ | ⟨awaited, free, same⟩ | ⟨awaited, waiting, same⟩ :=
    p.onNarrationEnd_cases token
  · rw [same]
    exact ⟨[], ⟨rfl, rfl, (List.append_nil _).symm, .single (.ignore p.control token stale)⟩,
      by simp⟩
  · rw [same]
    exact ⟨[], ⟨rfl, rfl, (List.append_nil _).symm,
      .single (.complete p.control token awaited free)⟩, by simp⟩
  · rw [same]
    obtain ⟨playing, resumed⟩ := p.resuming_runs token awaited waiting (rest waiting)
    obtain ⟨es, walked⟩ := p.resuming.sync_follows p.resuming.time playing
    exact ⟨_, (resumed.follows walked).render, fun _ =>
      ⟨awaited, waiting, es, rfl, walked.strides.never_starts⟩⟩

theorem advanceNarrator_answers (p : Player T G σ) (elapsed : T)
    (rest : p.autoPaused = true → p.state = .paused) :
    ∃ es, Answers p (p.opening (.tick elapsed)) es (p.advanceNarrator elapsed) ∧
      (.stateChanged .playing ∈ es → ∃ token, p.delivery? (.tick elapsed) = some token ∧
        p.Resumes token es) := by
  have called := p.called_runs (.tick elapsed) rfl
  obtain ⟨narrator, silent, same⟩ | ⟨token, narrator, delivered, same⟩ :=
    p.advanceNarrator_cases elapsed
  · have opening : p.opening (.tick elapsed) = [.called (.tick elapsed)] := by
      simp [Player.opening, silent, overrides, jumps]
    rw [same, opening]
    exact ⟨[], called.answers.congr rfl rfl rfl rfl, by simp⟩
  · have opening : p.opening (.tick elapsed) = [.called (.tick elapsed)] ++ [.delivered token] := by
      simp [Player.opening, delivered, overrides, jumps]
    have heard : Runs p [.called (.tick elapsed)] { p with narrator } :=
      called.congr rfl rfl rfl rfl
    obtain ⟨es, taken, starts⟩ := { p with narrator }.onNarrationEnd_answers token rest
    rw [same, opening]
    exact ⟨es, heard.after taken, fun told => ⟨token, delivered, starts told⟩⟩

theorem tick_answers (p : Player T G σ) (elapsed : T)
    (rest : p.autoPaused = true → p.state = .paused) :
    ∃ es, Answers p (p.opening (.tick elapsed)) es (p.tick elapsed) ∧
      (.stateChanged .playing ∈ es → ∃ token, p.delivery? (.tick elapsed) = some token ∧
        p.Resumes token es) := by
  obtain ⟨es, heard, starts⟩ := p.advanceNarrator_answers elapsed rest
  by_cases playing : (p.advanceNarrator elapsed).state = .playing
  · have ticking : Answers p (p.opening (.tick elapsed)) es (p.ticking elapsed) :=
      heard.congr rfl rfl rfl rfl
    obtain ⟨fs, walked⟩ := (p.ticking elapsed).sync_follows (p.ticking elapsed).time playing
    rw [tick_of_playing playing]
    generalize (p.ticking elapsed).sync (p.ticking elapsed).time = q at walked
    have told : Answers p (p.opening (.tick elapsed)) (es ++ fs ++ [.progress q.time q.duration])
        (q.emit (.progress q.time q.duration)) :=
      (ticking.follows walked).runs ⟨rfl, rfl, rfl, .single (.progress q.control _ _)⟩
    have quiet : .stateChanged .playing ∉ fs ++ [.progress q.time q.duration] := by
      simpa using walked.strides.never_starts
    rw [List.append_assoc] at told
    refine ⟨_, told.render, fun member => ?_⟩
    obtain ⟨token, delivered, resumes⟩ := starts ((List.mem_append.mp member).resolve_right quiet)
    exact ⟨token, delivered, resumes.append quiet⟩
  · rw [tick_of_resting playing]
    exact ⟨es, heard, starts⟩

/-! ### Starting playback -/

theorem opening_play {p : Player T G σ} (resting : p.state ≠ .playing) : p.opening .play =
    ([.called .play] ++ if p.overrides .play then [.overridden] else []) ++
      if p.duration ≤ p.time then [.jumped] else [] := by
  simp [Player.opening, delivery?, jumps, resting]

theorem starting_runs (p : Player T G σ) (resting : p.state ≠ .playing) :
    p.starting.state = p.state ∧ p.starting.autoPaused = false ∧
      Runs p (p.opening .play) p.starting := by
  -- The call alone, and the call with the return to the beginning.
  have asked : ∃ q : Player T G σ, q.state = p.state ∧ q.autoPaused = false ∧
      (if p.autoPaused then { p with autoPaused := false, pending := none } else p) = q ∧
      Runs p ([.called .play] ++ if p.overrides .play then [.overridden] else []) q ∧
      Runs p (([.called .play] ++ if p.overrides .play then [.overridden] else []) ++ [.jumped])
        p.rewind := by
    unfold overrides
    rw [decide_eq_true resting, Bool.true_and]
    cases waiting : p.autoPaused with
    | false =>
      have called : Runs p [.called .play] p :=
        ⟨rfl, rfl, (List.append_nil _).symm, .single (.callPlay p.control (.inr waiting))⟩
      exact ⟨p, rfl, waiting, rfl, called, (called.trans (p.leave_runs 0)).congr rfl rfl rfl rfl⟩
    | true =>
      have called : Runs p [.called .play, .overridden]
          { p with autoPaused := false, pending := none } :=
        ⟨rfl, rfl, (List.append_nil _).symm, .single (.override p.control waiting)⟩
      exact ⟨{ p with autoPaused := false, pending := none }, rfl, rfl, rfl, called,
        (called.trans (leave_runs _ 0)).congr rfl rfl rfl rfl⟩
  obtain ⟨q, state, free, same, called, rewound⟩ := asked
  rw [opening_play resting]
  by_cases ended : p.duration ≤ p.time
  · rw [starting_of_ended ended, if_pos ended]
    exact ⟨rfl, rfl, rewound⟩
  · rw [starting_of_going ended, same, if_neg ended, List.append_nil]
    exact ⟨state, free, called⟩

theorem play_answers (p : Player T G σ) : ∃ es, Answers p (p.opening .play) es p.play := by
  by_cases playing : p.state = .playing
  · have opening : p.opening .play = [.called .play] := by
      simp [Player.opening, delivery?, overrides, jumps, playing]
    rw [play_of_playing playing, opening]
    exact ⟨[], rfl, rfl, (List.append_nil _).symm, .single (.callPlay p.control (.inl playing))⟩
  · obtain ⟨state, free, called⟩ := p.starting_runs playing
    have resting : p.starting.state ≠ .playing := by rwa [state]
    have awake : Answers p (p.opening .play) [.stateChanged .playing] p.awake :=
      called.answers.runs ⟨rfl, rfl, rfl, .single (.start p.starting.control resting free)⟩
    obtain ⟨playing, es, entered, _⟩ := started_follows resting
    obtain ⟨fs, walked⟩ := p.started.sync_follows p.started.time playing
    rw [play_of_resting ‹_›]
    exact ⟨_, ((awake.follows entered).follows walked).render⟩

/-! ### Commands -/

theorem navigate_answers (p : Player T G σ) (c : Command T)
    (navigates : (∃ step, c = .seekStep step) ∨ c = .nextStep ∨ c = .previousStep)
    (placed : ∀ i, p.current = some i → i < p.timeline.boundaries.length) :
    ∃ es, Answers p (p.opening c) es (p.perform c).2 ∧ Quiet es := by
  have harmless : c.intervenes = false := by
    obtain ⟨_, rfl⟩ | rfl | rfl := navigates <;> rfl
  have opening : p.opening c = [.called c] ++ if p.jumps c then [.jumped] else [] := by
    obtain ⟨_, rfl⟩ | rfl | rfl := navigates <;> rfl
  have called := p.called_runs c harmless
  rw [opening]
  obtain ⟨stays, same⟩ | ⟨jumps, index, b, _, same⟩ := p.navigate_cases c navigates placed
  · rw [same, stays]
    exact ⟨[], called.answers, .nil⟩
  · rw [same, jumps]
    exact seekTo_answers (called.trans (p.leave_runs b.start)) (some index)

theorem setSpeed_answers (p : Player T G σ) (speed : T) :
    Answers p [.called (.setSpeed speed)] [] (p.perform (.setSpeed speed)).2 := by
  rw [perform_setSpeed]
  exact (p.called_runs (.setSpeed speed) rfl).answers.congr rfl rfl rfl rfl

theorem still_answers {p : Player T G σ} {c : Command T} (still : c.walks = false)
    (placed : ∀ i, p.current = some i → i < p.timeline.boundaries.length) :
    ∃ es, Answers p (p.opening c) es (p.perform c).2 ∧ Quiet es := by
  cases c with
  | play | tick | narrationEnd => cases still
  | pause => exact p.pause_answers
  | stop => exact p.stop_answers
  | seek time => exact seekTo_answers (p.called_leave_runs (.seek time) _ (.inr ⟨time, rfl⟩)) _
  | seekStep step => exact p.navigate_answers _ (.inl ⟨step, rfl⟩) placed
  | nextStep => exact p.navigate_answers _ (.inr (.inl rfl)) placed
  | previousStep => exact p.navigate_answers _ (.inr (.inr rfl)) placed
  | setSpeed speed => exact ⟨[], p.setSpeed_answers speed, .nil⟩

/-- Every command opens with its call and then tells events. Playback starts only where it is
asked for, or where the utterance is complete that a waiting player waits for. -/
theorem perform_answers {p : Player T G σ} (sound : p.Sound) (c : Command T) :
    ∃ es, Answers p (p.opening c) es (p.perform c).2 ∧
      (.stateChanged .playing ∈ es → c = .play ∨
        ∃ token, p.delivery? c = some token ∧ p.Resumes token es) := by
  by_cases walks : c.walks = true
  · cases c with
    | play =>
      obtain ⟨es, played⟩ := p.play_answers
      exact ⟨es, played, fun _ => .inl rfl⟩
    | tick elapsed =>
      obtain ⟨es, ticked, starts⟩ := p.tick_answers elapsed sound.rests
      exact ⟨es, ticked, fun told => .inr (starts told)⟩
    | narrationEnd token =>
      obtain ⟨es, taken, starts⟩ := p.onNarrationEnd_answers token sound.rests
      have called := p.called_runs (.narrationEnd token) rfl
      exact ⟨es, called.after taken, fun told => .inr ⟨token, rfl, starts told⟩⟩
    | _ => cases walks
  · obtain ⟨es, answered, quiet⟩ := still_answers (Bool.eq_false_iff.mpr walks) sound.placed
    exact ⟨es, answered, fun told => absurd told quiet.1⟩

theorem emitted_of_answers {p : Player T G σ} {c : Command T} {es : List (PlayerEvent T)}
    (h : Answers p (p.opening c) es (p.perform c).2) : p.emitted c = es := by
  have told := congrArg (List.drop p.events.length) (Runs.events h)
  rwa [List.drop_left, opening_events] at told

theorem perform_emitted {p : Player T G σ} (sound : p.Sound) (c : Command T) :
    Answers p (p.opening c) (p.emitted c) (p.perform c).2 ∧
      (.stateChanged .playing ∈ p.emitted c → c = .play ∨
        ∃ token, p.delivery? c = some token ∧ p.Resumes token (p.emitted c)) := by
  obtain ⟨es, performed, starts⟩ := perform_answers sound c
  rw [emitted_of_answers performed]
  exact ⟨performed, starts⟩

/-! ### Runs -/

theorem run_runs {p : Player T G σ} (sound : p.Sound) (commands : List (Command T)) :
    Runs p (p.log commands) (p.run commands) := by
  induction commands using List.reverseRecOn with
  | nil => exact .refl p
  | append_singleton commands c ih =>
    rw [log_snoc, run_snoc, marks]
    exact ih.trans (perform_emitted (ih.sound sound) c).1

section

variable (captions : List Caption) (timeline : Timeline T G) (settings : List (Setting T G σ))
  (commands : List (Command T))

theorem setUp_acts : Acts (setUp captions timeline settings).course {}
    ((setUp captions timeline settings).log commands)
    ((setUp captions timeline settings).run commands).control := by
  obtain ⟨_, control, _⟩ := setUp_rests captions timeline settings
  have acts := (run_runs (sound_of_initial control) commands).acts
  rwa [control] at acts

theorem setUp_events : ((setUp captions timeline settings).run commands).events =
    ((setUp captions timeline settings).log commands).filterMap Mark.event? := by
  obtain ⟨_, control, events⟩ := setUp_rests captions timeline settings
  rw [(run_runs (sound_of_initial control) commands).events, events, List.nil_append]

theorem setUp_sound : ((setUp captions timeline settings).run commands).Sound := by
  obtain ⟨_, control, _⟩ := setUp_rests captions timeline settings
  exact (run_runs (sound_of_initial control) commands).sound (sound_of_initial control)

end

end Player

end Storyboard
