import Mathlib.Data.List.Induction
import Storyboard.Proofs.Playback.Part
import Storyboard.Proofs.Playback.Control

/-!
# The course of a player

How one player comes out of another: by strides (`Follows`), by acts that put marks into a log
(`Runs`), or by acts that open with marks and then tell events (`Answers`). Each can be continued.
-/

namespace Storyboard

namespace Player

variable {T G σ : Type}

theorem course_eq {p q : Player T G σ} (timeline : q.timeline = p.timeline)
    (looping : q.looping = p.looping) : q.course = p.course := by
  rw [course, course, timeline, looping]

/-- `q` comes out of `p` by strides, and they tell the events. -/
structure Follows (p : Player T G σ) (es : List (PlayerEvent T)) (q : Player T G σ) : Prop where
  timeline : q.timeline = p.timeline
  looping : q.looping = p.looping
  events : q.events = p.events ++ es
  strides : Strides p.course p.control es q.control

namespace Follows

variable {p q r : Player T G σ} {es fs : List (PlayerEvent T)}

theorem refl (p : Player T G σ) : Follows p [] p :=
  ⟨rfl, rfl, (List.append_nil _).symm, .nil _⟩

theorem trans (first : Follows p es q) (second : Follows q fs r) : Follows p (es ++ fs) r where
  timeline := second.timeline.trans first.timeline
  looping := second.looping.trans first.looping
  events := by rw [second.events, first.events, List.append_assoc]
  strides := first.strides.trans (course_eq first.timeline first.looping ▸ second.strides)

end Follows

/-- `q` comes out of `p` by acts, and they put the marks into the log. -/
structure Runs (p : Player T G σ) (log : List (Mark T)) (q : Player T G σ) : Prop where
  timeline : q.timeline = p.timeline
  looping : q.looping = p.looping
  events : q.events = p.events ++ log.filterMap Mark.event?
  acts : Acts p.course p.control log q.control

namespace Runs

variable {p q r : Player T G σ} {log marks : List (Mark T)} {es : List (PlayerEvent T)}

theorem refl (p : Player T G σ) : Runs p [] p :=
  ⟨rfl, rfl, (List.append_nil _).symm, .nil _⟩

theorem trans (first : Runs p log q) (second : Runs q marks r) : Runs p (log ++ marks) r where
  timeline := second.timeline.trans first.timeline
  looping := second.looping.trans first.looping
  events := by rw [second.events, first.events, List.append_assoc, List.filterMap_append]
  acts := first.acts.trans (course_eq first.timeline first.looping ▸ second.acts)

theorem congr (h : Runs p log q) (timeline : r.timeline = q.timeline)
    (looping : r.looping = q.looping) (events : r.events = q.events)
    (control : r.control = q.control) : Runs p log r :=
  ⟨timeline.trans h.timeline, looping.trans h.looping, events.trans h.events, control ▸ h.acts⟩

end Runs

theorem Runs.sound {p q : Player T G σ} {log : List (Mark T)} (initial : p.Sound)
    (h : Runs p log q) : q.Sound where
  rests := h.acts.waits_at_rest initial.rests
  placed i current := h.timeline ▸ h.acts.placed initial.placed i current

theorem Follows.runs {p q : Player T G σ} {es : List (PlayerEvent T)} (h : Follows p es q) :
    Runs p (Mark.ofEvents p.looping es) q :=
  ⟨h.timeline, h.looping, by rw [h.events, Mark.filterMap_ofEvents], .ofStrides h.strides⟩

/-- The events tell neither a start of playback nor the end of the timeline. -/
def Quiet (es : List (PlayerEvent T)) : Prop :=
  .stateChanged .playing ∉ es ∧ .finished ∉ es

theorem Quiet.nil : Quiet ([] : List (PlayerEvent T)) := ⟨List.not_mem_nil, List.not_mem_nil⟩

theorem Quiet.append {es fs : List (PlayerEvent T)} (first : Quiet es) (second : Quiet fs) :
    Quiet (es ++ fs) := by
  simp [Quiet, first.1, first.2, second.1, second.2]

/-- `q` comes out of `p` by acts that open with the marks and then tell the events. -/
def Answers (p : Player T G σ) (opening : List (Mark T)) (es : List (PlayerEvent T))
    (q : Player T G σ) : Prop :=
  Runs p (opening ++ Mark.ofEvents p.looping es) q

theorem Runs.answers {p q : Player T G σ} {opening : List (Mark T)} (h : Runs p opening q) :
    Answers p opening [] q := by
  rwa [Answers, Mark.ofEvents_nil, List.append_nil]

theorem Runs.after {p q r : Player T G σ} {log opening : List (Mark T)}
    {es : List (PlayerEvent T)} (first : Runs p log q) (second : Answers q opening es r) :
    Answers p (log ++ opening) es r := by
  rw [Answers, List.append_assoc, ← first.looping]
  exact first.trans second

theorem called_runs (p : Player T G σ) (c : Command T) (harmless : c.intervenes = false) :
    Runs p [.called c] p :=
  ⟨rfl, rfl, (List.append_nil _).symm, .single (.call p.control c harmless)⟩

namespace Answers

variable {p q r : Player T G σ} {log opening : List (Mark T)} {es fs : List (PlayerEvent T)}

theorem runs (first : Answers p opening es q) (second : Runs q (Mark.ofEvents p.looping fs) r) :
    Answers p opening (es ++ fs) r := by
  rw [Answers, Mark.ofEvents_append, ← List.append_assoc]
  exact Runs.trans first second

theorem follows (first : Answers p opening es q) (second : Follows q fs r) :
    Answers p opening (es ++ fs) r :=
  first.runs (by rw [← Runs.looping first]; exact second.runs)

theorem render [Scalar T] [Scalar G] [Narrow T G] (h : Answers p opening es q) :
    Answers p opening es q.render := by
  obtain ⟨_, same⟩ := q.render_frame
  rw [same]
  exact Runs.congr h rfl rfl rfl rfl

/-- A change of state that does not start playback is told, if it is one. -/
theorem setState (h : Answers p opening es q) (state : Transport) (resting : state ≠ .playing)
    (free : q.autoPaused = false) (quiet : Quiet es) :
    ∃ fs, Answers p opening fs (q.setState state) ∧ Quiet fs := by
  obtain ⟨_, same⟩ | ⟨_, same⟩ := q.setState_cases state
  · rw [same]
    exact ⟨es, h, quiet⟩
  · rw [same]
    refine ⟨es ++ [.stateChanged state], h.runs ⟨rfl, rfl, rfl, ?_⟩, ?_⟩
    · exact .single (.rest q.control state resting free)
    · simpa [Quiet, resting.symm] using quiet

end Answers

/-! ### Setting up -/

theorem setUp_rests [Scalar T] [Scalar G] (captions : List Caption) (timeline : Timeline T G)
    (settings : List (Setting T G σ)) :
    (setUp captions timeline settings).timeline = timeline ∧
      (setUp captions timeline settings).control = {} ∧
      (setUp captions timeline settings).events = [] := by
  rw [setUp]
  induction settings using List.reverseRecOn with
  | nil => exact ⟨rfl, rfl, rfl⟩
  | append_singleton settings s ih =>
    rw [List.foldl_append]
    cases s with
    | speed speed =>
      rw [List.foldl_cons, configure, withSpeed_eq]
      exact ih
    | _ => exact ih

/-! ### Completions that resume playback -/

/-- The events of a completion that a waiting player waits for. It starts playback before
anything else happens, and nothing else does. -/
def Resumes (p : Player T G σ) (token : Nat) (es : List (PlayerEvent T)) : Prop :=
  p.pending = some token ∧ p.autoPaused = true ∧
    ∃ fs, es = .stateChanged .playing :: .resumed :: fs ∧ .stateChanged .playing ∉ fs

theorem Resumes.append {p : Player T G σ} {token : Nat} {es fs : List (PlayerEvent T)}
    (h : p.Resumes token es) (quiet : .stateChanged .playing ∉ fs) : p.Resumes token (es ++ fs) := by
  obtain ⟨awaited, waiting, gs, rfl, calm⟩ := h
  exact ⟨awaited, waiting, gs ++ fs, rfl, by simp [calm, quiet]⟩

theorem resuming_eq {p : Player T G σ} (rest : p.state = .paused) : p.resuming = { p with
    pending := none, autoPaused := false, clock := p.clock.play, state := .playing
    events := p.events ++ [.stateChanged .playing] ++ [.resumed] } := by
  have moves : ({ p with pending := none, autoPaused := false, clock := p.clock.play } :
      Player T G σ).state ≠ .playing := by simp [rest]
  rw [resuming, setState, if_neg moves]
  rfl

theorem resuming_runs (p : Player T G σ) (token : Nat) (awaited : p.pending = some token)
    (waiting : p.autoPaused = true) (rest : p.state = .paused) :
    p.resuming.state = .playing ∧
      Answers p [.delivered token] [.stateChanged .playing, .resumed] p.resuming := by
  rw [resuming_eq rest]
  refine ⟨rfl, rfl, rfl, ?_, .single (.resume p.control token awaited waiting)⟩
  exact List.append_assoc _ _ _

end Player

end Storyboard
