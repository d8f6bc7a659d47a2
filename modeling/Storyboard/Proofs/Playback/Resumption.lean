import Storyboard.Proofs.Playback.History
import Storyboard.Proofs.Playback.Performance

/-!
# Resumption

Playback goes on by itself only after it has paused by itself, and only if nothing has ended the
waiting in between. A player that rests without waiting stays where it is until it is asked to
play or to move.
-/

namespace Storyboard

open History

variable {T G σ : Type}

def Mark.endsWait : Mark T → Bool
  | called c => c.intervenes
  | jumped => true
  | told .resumed => true
  | _ => false

/-- The player has paused by itself, and nothing has ended the waiting since. -/
def Waiting (log : List (Mark T)) : Prop :=
  Since (fun m => ∃ step, m = .told (.autoPaused step)) (fun m => m.endsWait = false) log

namespace Acts

variable {course : Course} {log : List (Mark T)} {y : Control}

theorem waiting (h : Acts course {} log y) : y.autoPaused = true → Waiting log := by
  induction h with
  | nil => intro waits; cases waits
  | @snoc x z log _ first last ih =>
    have rests := first.waits_at_rest (by simp)
    intro waits
    cases last with
    | stride stride =>
      cases stride with
      | wait step =>
        have opened : Waiting (log ++ [.told (.stateChanged .paused)] ++ [.told (.autoPaused step)]) :=
          .opened _ ⟨step, rfl⟩
        rw [List.append_assoc] at opened
        exact opened
      | again => cases waits
      | finish playing once =>
        have resting := rests waits
        rw [playing] at resting
        cases resting
      | _ => exact (ih waits).append (by simp [Mark.ofEvents, Mark.ofEvent, Mark.endsWait])
    | call c harmless => exact (ih waits).append (by simp [Mark.endsWait, harmless])
    | callPlay unforced =>
      rcases unforced with playing | free
      · have resting := rests waits
        rw [playing] at resting
        cases resting
      · rw [free] at waits
        cases waits
    | override | callPause | leave | jump | resume => cases waits
    | start _ free | rest _ _ free | complete _ _ free =>
      rw [free] at waits
      cases waits
    | ignore | progress => exact (ih waits).append (by simp [Mark.endsWait])

theorem resumes_after_waiting (h : Acts course {} log y) :
    Throughout (fun before m => m = .told .resumed → Waiting before) [] log := by
  induction h with
  | nil => trivial
  | @snoc x z log _ first last ih =>
    refine throughout_append.mpr ⟨ih, ?_⟩
    cases last with
    | stride stride => cases stride <;> simp [Mark.ofEvents, Mark.ofEvent, Throughout, *]
    | resume token awaited waits =>
      have waited : Waiting (log ++ [.delivered token, .told (.stateChanged .playing)]) :=
        (first.waiting waits).append (by simp [Mark.endsWait])
      simpa [Throughout] using waited
    | _ => simp [Throughout]

end Acts

/-! ### Resumptions in the events -/

theorem Waiting.events {log : List (Mark T)} (h : Waiting log) :
    ∃ earlier step between, log.filterMap Mark.event? = earlier ++ .autoPaused step :: between ∧
      .resumed ∉ between := by
  obtain ⟨before, _, after, rfl, ⟨step, rfl⟩, kept⟩ := h
  refine ⟨before.filterMap Mark.event?, step, after.filterMap Mark.event?, by simp [Mark.event?], ?_⟩
  intro member
  obtain ⟨m, present, told⟩ := List.mem_filterMap.mp member
  have ends := kept m present
  cases m with
  | told e =>
    cases told
    cases ends
  | _ => cases told

/-! ### Rest -/

/-- The commands that leave a resting player where it is. -/
def Command.idles : Command T → Bool
  | .tick _ | .narrationEnd _ | .setSpeed _ | .pause => true
  | .play | .stop | .seek _ | .seekStep _ | .nextStep | .previousStep => false

namespace Player

/-- Neither playing nor about to go on by itself. -/
def Resting (p : Player T G σ) : Prop :=
  p.state ≠ .playing ∧ p.autoPaused = false

variable [Narrator T σ]

theorem pause_rests (p : Player T G σ) : p.pause.Resting ∧ p.pause.time = p.time := by
  rw [pause]
  split
  · rename_i stopped
    refine ⟨⟨?_, rfl⟩, rfl⟩
    rw [stopped]
    decide
  · obtain ⟨_, same⟩ := setState_frame ({ p with
      autoPaused := false, clock := p.clock.pause }.mapNarrator Narrator.pause) .paused
    rw [same]
    refine ⟨⟨?_, rfl⟩, rfl⟩
    intro playing
    cases playing

variable [Scalar T] [Scalar G] [Narrow T G]

theorem onNarrationEnd_rests {p : Player T G σ} (token : Nat) (resting : p.Resting) :
    (p.onNarrationEnd token).Resting ∧ (p.onNarrationEnd token).time = p.time := by
  obtain ⟨_, same⟩ | ⟨_, _, same⟩ | ⟨_, waiting, _⟩ := p.onNarrationEnd_cases token
  · rw [same]
    exact ⟨resting, rfl⟩
  · rw [same]
    exact ⟨resting, rfl⟩
  · rw [resting.2] at waiting
    cases waiting

theorem advanceNarrator_rests {p : Player T G σ} (elapsed : T) (resting : p.Resting) :
    (p.advanceNarrator elapsed).Resting ∧ (p.advanceNarrator elapsed).time = p.time := by
  obtain ⟨narrator, _, same⟩ | ⟨token, narrator, _, same⟩ := p.advanceNarrator_cases elapsed
  · rw [same]
    exact ⟨resting, rfl⟩
  · rw [same]
    exact onNarrationEnd_rests (p := { p with narrator }) token resting

theorem perform_rests {p : Player T G σ} {c : Command T} (idles : c.idles = true)
    (resting : p.Resting) : (p.perform c).2.Resting ∧ (p.perform c).2.time = p.time := by
  cases c with
  | tick elapsed =>
    have advanced := advanceNarrator_rests elapsed resting
    rw [perform, tick_of_resting advanced.1.1]
    exact advanced
  | narrationEnd token => exact onNarrationEnd_rests token resting
  | setSpeed speed =>
    rw [perform_setSpeed]
    refine ⟨resting, ?_⟩
    unfold time Clock.setSpeed
    split <;> rfl
  | pause => exact p.pause_rests
  | _ => cases idles

theorem run_rests {p : Player T G σ} {commands : List (Command T)}
    (idle : ∀ c ∈ commands, c.idles = true) (resting : p.Resting) :
    (p.run commands).Resting ∧ (p.run commands).time = p.time := by
  induction commands generalizing p with
  | nil => exact ⟨resting, rfl⟩
  | cons c rest ih =>
    obtain ⟨still, same⟩ := perform_rests (idle c List.mem_cons_self) resting
    obtain ⟨rests, stays⟩ := ih (fun c member => idle c (List.mem_cons_of_mem _ member)) still
    exact ⟨rests, stays.trans same⟩

/-! ### Runs -/

variable (captions : List Caption) (timeline : Timeline T G) (settings : List (Setting T G σ))
  (commands : List (Command T))

theorem resumed_after_autoPaused {before after : List (PlayerEvent T)}
    (split : ((setUp captions timeline settings).run commands).events =
      before ++ .resumed :: after) :
    ∃ earlier step between, before = earlier ++ .autoPaused step :: between ∧
      .resumed ∉ between := by
  have acts := setUp_acts captions timeline settings commands
  rw [setUp_events] at split
  obtain ⟨early, late, log, rfl, told⟩ := List.filterMap_eq_append_iff.mp split
  obtain ⟨mid, m, later, rfl, silent, resumed, _⟩ := List.filterMap_eq_cons_iff.mp told
  rw [log, ← List.append_assoc] at acts
  have entry : m = .told .resumed := by
    cases m with
    | told e => exact congrArg _ (Option.some.inj resumed)
    | _ => cases resumed
  obtain ⟨earlier, step, between, split, quiet⟩ :=
    (acts.resumes_after_waiting.apply entry).events
  have same : mid.filterMap Mark.event? = [] := List.filterMap_eq_nil_iff.mpr silent
  rw [List.filterMap_append, same, List.append_nil] at split
  exact ⟨earlier, step, between, split, quiet⟩

theorem starts_rightly (c : Command T)
    (starts : .stateChanged .playing ∈ ((setUp captions timeline settings).run commands).emitted c) :
    c = .play ∨ ∃ token, ((setUp captions timeline settings).run commands).delivery? c = some token ∧
      ((setUp captions timeline settings).run commands).Resumes token
        (((setUp captions timeline settings).run commands).emitted c) ∧
      Waiting ((setUp captions timeline settings).log commands) := by
  have sound := setUp_sound captions timeline settings commands
  rcases (perform_emitted sound c).2 starts with played | ⟨token, delivered, resumes⟩
  · exact .inl played
  · have waiting := (setUp_acts captions timeline settings commands).waiting resumes.2.1
    exact .inr ⟨token, delivered, resumes, waiting⟩

/-- Playback starts only where it is asked for, or where the completion comes that a player has
waited for ever since it paused by itself. A player that rests and does not wait stays. -/
theorem never_resumes_wrongly :
    let start := setUp captions timeline settings
    let p := start.run commands
    (∀ c, .stateChanged .playing ∈ p.emitted c ∨
        p.state ≠ .playing ∧ (p.perform c).2.state = .playing →
      c = .play ∨ ∃ token, p.delivery? c = some token ∧ p.Resumes token (p.emitted c) ∧
        Waiting (start.log commands)) ∧
    (∀ before after, p.events = before ++ .resumed :: after →
      ∃ earlier step between, before = earlier ++ .autoPaused step :: between ∧
        .resumed ∉ between) ∧
    (p.state ≠ .playing → p.autoPaused = false →
      ∀ later : List (Command T), (∀ c ∈ later, c.idles = true) →
        (p.run later).state ≠ .playing ∧ (p.run later).time = p.time) := by
  intro start p
  have sound : p.Sound := setUp_sound captions timeline settings commands
  refine ⟨?_, ?_, ?_⟩
  · intro c starts
    refine starts_rightly captions timeline settings commands c ?_
    rcases starts with told | ⟨resting, playing⟩
    · exact told
    · have told := (perform_emitted sound c).1.acts.starts_told resting playing
      rw [← p.opening_events c (p.emitted c)]
      exact List.mem_filterMap.mpr ⟨_, told, rfl⟩
  · intro before after split
    exact resumed_after_autoPaused captions timeline settings commands split
  · intro resting free later idle
    obtain ⟨rests, stays⟩ := run_rests idle ⟨resting, free⟩
    exact ⟨rests.1, stays⟩

end Player

end Storyboard
