import Storyboard.Proofs.Playback.Log

/-!
# Control of playback

`Control` is what decides the course of playback, apart from the clock. A `Stride` is one thing
that the walk over the boundaries can do to it, with the events that it tells; an `Act` is one
thing that a run can do to it, with what it puts into the log. What every act preserves holds of
every run.
-/

namespace Storyboard

structure Control where
  state : Transport := .stopped
  current : Option Nat := none
  spoken : Option Nat := none
  autoPaused : Bool := false
  pending : Option Nat := none
  lastToken : Nat := 0

namespace Control

def away (x : Control) : Control :=
  { x with current := none, spoken := none, autoPaused := false, pending := none }

end Control

/-- What a run does not change: whether playback loops, and how many boundaries there are. -/
structure Course where
  looping : Bool
  length : Nat

variable {T : Type}

/-- One thing that the walk over the boundaries does. -/
inductive Stride (course : Course) : Control → List (PlayerEvent T) → Control → Prop where
  /-- The boundary entered is the one after the current one, if there is a current one. -/
  | enter (x : Control) (step index : Nat) (next : ∀ j, x.current = some j → index = j + 1)
      (present : index < course.length) :
      Stride course x [.stepChanged step index] { x with current := some index }
  | mute (x : Control) (index : Nat) (playing : x.state = .playing) :
      Stride course x [] { x with spoken := some index, pending := none }
  | refuse (x : Control) (playing : x.state = .playing) (silent : x.pending = none) :
      Stride course x [] { x with lastToken := x.lastToken + 1 }
  | speak (x : Control) (step : Nat) (playing : x.state = .playing) (silent : x.pending = none) :
      Stride course x [.narrationStarted step (x.lastToken + 1)]
        { x with lastToken := x.lastToken + 1, pending := some (x.lastToken + 1) }
  | wait (x : Control) (step : Nat) (playing : x.state = .playing)
      (speaking : x.pending.isSome = true) :
      Stride course x [.stateChanged .paused, .autoPaused step]
        { x with state := .paused, autoPaused := true }
  | finish (x : Control) (playing : x.state = .playing) (once : course.looping = false) :
      Stride course x [.finished, .stateChanged .paused] { x with state := .paused }
  | again (x : Control) (playing : x.state = .playing) (loops : course.looping = true) :
      Stride course x [.finished] x.away

inductive Strides (course : Course) : Control → List (PlayerEvent T) → Control → Prop where
  | nil (x : Control) : Strides course x [] x
  | snoc {x y z : Control} {es fs : List (PlayerEvent T)} :
      Strides course x es y → Stride course y fs z → Strides course x (es ++ fs) z

theorem Stride.strides {course : Course} {x y : Control} {es : List (PlayerEvent T)}
    (h : Stride course x es y) : Strides course x es y :=
  .snoc (.nil x) h

theorem Strides.trans {course : Course} {x y z : Control} {es fs : List (PlayerEvent T)}
    (first : Strides course x es y) (second : Strides course y fs z) :
    Strides course x (es ++ fs) z := by
  induction second with
  | nil => rwa [List.append_nil]
  | snoc _ last ih =>
    rw [← List.append_assoc]
    exact .snoc ih last

theorem Strides.never_starts {course : Course} {x y : Control} {es : List (PlayerEvent T)}
    (h : Strides course x es y) : PlayerEvent.stateChanged .playing ∉ es := by
  induction h with
  | nil => exact List.not_mem_nil
  | snoc _ last ih =>
    intro member
    rcases List.mem_append.mp member with old | new
    · exact ih old
    · cases last <;> simp at new

/-! ### Acts -/

/-- A call that takes a waiting player out of its waiting. -/
def Command.intervenes : Command T → Bool
  | .play | .pause | .stop | .seek _ => true
  | .seekStep _ | .nextStep | .previousStep | .setSpeed _ | .tick _ | .narrationEnd _ => false

/-- One thing that a run does to the control. -/
inductive Act (course : Course) : Control → List (Mark T) → Control → Prop where
  | stride {x y : Control} {es : List (PlayerEvent T)} (h : Stride course x es y) :
      Act course x (Mark.ofEvents course.looping es) y
  | call (x : Control) (c : Command T) (harmless : c.intervenes = false) :
      Act course x [.called c] x
  | callPlay (x : Control) (unforced : x.state = .playing ∨ x.autoPaused = false) :
      Act course x [.called .play] x
  | override (x : Control) (waiting : x.autoPaused = true) :
      Act course x [.called .play, .overridden] { x with autoPaused := false, pending := none }
  | callPause (x : Control) : Act course x [.called .pause] { x with autoPaused := false }
  | leave (x : Control) (c : Command T) (leaves : c = .stop ∨ ∃ time, c = .seek time) :
      Act course x [.called c, .jumped] x.away
  | jump (x : Control) : Act course x [.jumped] x.away
  | start (x : Control) (resting : x.state ≠ .playing) (free : x.autoPaused = false) :
      Act course x [.told (.stateChanged .playing)] { x with state := .playing }
  | rest (x : Control) (state : Transport) (resting : state ≠ .playing)
      (free : x.autoPaused = false) :
      Act course x [.told (.stateChanged state)] { x with state }
  | ignore (x : Control) (token : Nat) (stale : x.pending ≠ some token) :
      Act course x [.delivered token] x
  | complete (x : Control) (token : Nat) (awaited : x.pending = some token)
      (free : x.autoPaused = false) :
      Act course x [.delivered token] { x with pending := none }
  | resume (x : Control) (token : Nat) (awaited : x.pending = some token)
      (waiting : x.autoPaused = true) :
      Act course x [.delivered token, .told (.stateChanged .playing), .told .resumed]
        { x with state := .playing, autoPaused := false, pending := none }
  | progress (x : Control) (time duration : T) :
      Act course x [.told (.progress time duration)] x

inductive Acts (course : Course) : Control → List (Mark T) → Control → Prop where
  | nil (x : Control) : Acts course x [] x
  | snoc {x y z : Control} {log marks : List (Mark T)} :
      Acts course x log y → Act course y marks z → Acts course x (log ++ marks) z

namespace Acts

variable {course : Course} {x y z : Control} {log marks : List (Mark T)}

theorem single (h : Act course x marks y) : Acts course x marks y :=
  .snoc (.nil x) h

theorem trans (first : Acts course x log y) (second : Acts course y marks z) :
    Acts course x (log ++ marks) z := by
  induction second with
  | nil => rwa [List.append_nil]
  | snoc _ last ih =>
    rw [← List.append_assoc]
    exact .snoc ih last

theorem ofStrides {es : List (PlayerEvent T)} (h : Strides course x es y) :
    Acts course x (Mark.ofEvents course.looping es) y := by
  induction h with
  | nil => exact .nil _
  | snoc _ last ih =>
    rw [Mark.ofEvents_append]
    exact .snoc ih (.stride last)

theorem waits_at_rest (h : Acts course x log y)
    (initial : x.autoPaused = true → x.state = .paused) :
    y.autoPaused = true → y.state = .paused := by
  induction h with
  | nil => exact initial
  | snoc _ last ih =>
    intro waiting
    cases last with
    | stride stride =>
      cases stride with
      | wait | finish => rfl
      | again => cases waiting
      | _ => exact ih waiting
    | override | callPause | leave | jump | resume => cases waiting
    | start _ free | rest _ _ free | complete _ _ free =>
      rw [free] at waiting
      cases waiting
    | _ => exact ih waiting

theorem placed (h : Acts course x log y) (initial : ∀ i, x.current = some i → i < course.length) :
    ∀ i, y.current = some i → i < course.length := by
  induction h with
  | nil => exact initial
  | snoc _ last ih =>
    intro i current
    cases last with
    | stride stride =>
      cases stride with
      | enter _ _ _ present => exact Option.some.inj current ▸ present
      | again => cases current
      | _ => exact ih i current
    | leave | jump => cases current
    | _ => exact ih i current

theorem starts_told (h : Acts course x log y) (resting : x.state ≠ .playing) :
    y.state = .playing → .told (.stateChanged .playing) ∈ log := by
  induction h with
  | nil => exact fun playing => absurd playing resting
  | snoc _ last ih =>
    intro playing
    cases last with
    | stride stride =>
      cases stride with
      | wait | finish => cases playing
      | _ => exact List.mem_append_left _ (ih playing)
    | start | resume => simp
    | rest _ still => exact absurd playing still
    | _ => exact List.mem_append_left _ (ih playing)

end Acts

/-! ### The control of a player -/

namespace Player

variable {G σ : Type}

def course (p : Player T G σ) : Course :=
  { looping := p.looping, length := p.timeline.boundaries.length }

def control (p : Player T G σ) : Control :=
  { state := p.state, current := p.current, spoken := p.spoken
    autoPaused := p.autoPaused, pending := p.pending, lastToken := p.lastToken }

structure Sound (p : Player T G σ) : Prop where
  rests : p.autoPaused = true → p.state = .paused
  placed : ∀ i, p.current = some i → i < p.timeline.boundaries.length

theorem sound_of_initial {p : Player T G σ} (initial : p.control = {}) : p.Sound where
  rests waiting := by
    have free : p.autoPaused = false := congrArg Control.autoPaused initial
    rw [free] at waiting
    cases waiting
  placed i current := by
    have away : p.current = none := congrArg Control.current initial
    rw [away] at current
    cases current

end Player

end Storyboard
