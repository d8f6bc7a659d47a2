import Storyboard.Diagram.Basic
import Storyboard.Playback.Clock
import Storyboard.Playback.Narrator
import Storyboard.Playback.Screen

/-!
# The player

The player drives a timeline by a clock, shows frames on a screen and keeps pace with a narrator.
When a step is entered while playing, its caption is spoken; if the cursor reaches the end of the
step before the utterance is complete, the player pauses by itself and goes on when the completion
comes. `sync` walks the cursor over the boundaries; everything else is a transport operation.
-/

namespace Storyboard

inductive Transport where
  | stopped
  | playing
  | paused
  deriving DecidableEq, Repr, Inhabited

def Transport.name : Transport → String
  | stopped => "stopped"
  | playing => "playing"
  | paused => "paused"

/-- What a player tells its host. -/
inductive PlayerEvent (T : Type) where
  | stepChanged (step index : Nat)
  | stateChanged (state : Transport)
  /-- The visuals of a step were over before its narration. -/
  | autoPaused (step : Nat)
  /-- Narration was over and playback went on. -/
  | resumed
  | finished
  | progress (time duration : T)
  | narrationStarted (step token : Nat)
  deriving DecidableEq, Repr

/-- Why a player refuses an operation. -/
inductive PlayerError (T : Type) where
  | invalidSpeed (speed : T)
  deriving Repr

def PlayerError.message {T : Type} [Scalar T] : PlayerError T → String
  | invalidSpeed speed => "speed must be a positive number, got " ++ Scalar.render speed

/-- A player whose narrator has states `σ`. -/
structure Player (T G σ : Type) where
  timeline : Timeline T G
  clock : Clock T G
  screen : Option (Screen T G) := none
  narrator : Option σ := none
  /-- What is said in each step. -/
  captions : OrderedMap Nat String := {}
  narrationEnabled : Bool := true
  looping : Bool := false
  state : Transport := .stopped
  /-- The boundary that the cursor is in. -/
  current : Option Nat := none
  /-- The boundary whose caption was last due. -/
  spoken : Option Nat := none
  /-- Whether it waits for the narrator at the end of a step. -/
  autoPaused : Bool := false
  /-- The utterance that it waits for. -/
  pending : Option Nat := none
  lastToken : Nat := 0
  /-- What was not yet told to the host, the oldest first. -/
  events : List (PlayerEvent T) := []
  deriving Repr

/-- The captions by step. The first that has anything to say counts. -/
def captionTexts (captions : List Caption) : OrderedMap Nat String :=
  captions.foldl
    (fun m c => match c.spoken? with
      | some text => m.insertNew c.step text
      | none => m)
    {}

namespace Player

variable {T G σ : Type} [Scalar T] [Scalar G] [Narrow T G]

/-- A stopped player with the clock set up for the timeline. -/
def ofTimeline (captions : List Caption) (timeline : Timeline T G) : Player T G σ :=
  { timeline
    clock := ((Clock.idle.install timeline).pause).seek 0
    captions := captionTexts captions }

def time (p : Player T G σ) : T := p.clock.time

def duration (p : Player T G σ) : T := p.timeline.duration

def boundary? (p : Player T G σ) (index : Nat) : Option (Boundary T) :=
  p.timeline.boundaries[index]?

/-- The boundary that the cursor is in. -/
def currentBoundary? (p : Player T G σ) : Option (Boundary T) :=
  p.current.bind p.boundary?

def currentStep? (p : Player T G σ) : Option Nat :=
  p.currentBoundary?.map Boundary.step

/-- Whether narration is enabled and there is a narrator. -/
def narrationActive (p : Player T G σ) : Bool :=
  p.narrationEnabled && p.narrator.isSome

def caption? (p : Player T G σ) (step : Nat) : Option String :=
  p.captions.get? step

/-- The frame at the cursor. -/
def frame (p : Player T G σ) : Frame T G := p.timeline.sample p.time

/-- Takes the events that were not yet told. -/
def drainEvents (p : Player T G σ) : List (PlayerEvent T) × Player T G σ :=
  (p.events, { p with events := [] })

/-! ### Parts of operations -/

def emit (p : Player T G σ) (e : PlayerEvent T) : Player T G σ :=
  { p with events := p.events ++ [e] }

def setState (p : Player T G σ) (state : Transport) : Player T G σ :=
  if p.state = state then p else { p with state }.emit (.stateChanged state)

/-- Shows a frame, if there is a screen. -/
def display (p : Player T G σ) (f : Frame T G) : Player T G σ :=
  { p with screen := p.screen.map (fun s => s.render f) }

/-- Shows the frame at the cursor. -/
def render (p : Player T G σ) : Player T G σ :=
  match p.screen with
  | some _ => p.display p.frame
  | none => p

/-! ### Setting up -/

/-- Changes how fast the cursor moves. -/
def setSpeed (p : Player T G σ) (speed : T) : Except (PlayerError T) (Player T G σ) :=
  if Clock.isSpeed speed then .ok { p with clock := p.clock.setSpeed speed }
  else .error (.invalidSpeed speed)

/-- Sets the speed, if it can be one. -/
def withSpeed (p : Player T G σ) (speed : T) : Player T G σ :=
  match p.setSpeed speed with
  | .ok p => p
  | .error _ => p

def withNarration (p : Player T G σ) (narrationEnabled : Bool) : Player T G σ :=
  { p with narrationEnabled }

def withLooping (p : Player T G σ) (looping : Bool) : Player T G σ :=
  { p with looping }

/-- Attaches a screen, which shows the frame before any cue. -/
def withScreen (p : Player T G σ) (screen : Screen T G) : Player T G σ :=
  { p with screen := some screen }.display p.timeline.initialFrame

def withNarrator (p : Player T G σ) (narrator : σ) : Player T G σ :=
  { p with narrator := some narrator }

/-! ### The narrator -/

variable [Narrator T σ]

def mapNarrator (p : Player T G σ) (f : σ → σ) : Player T G σ :=
  { p with narrator := p.narrator.map f }

/-- Breaks off the utterance, and the waiting for it. -/
def cancelNarration (p : Player T G σ) : Player T G σ :=
  { p.mapNarrator Narrator.cancel with pending := none, autoPaused := false }

/-- Speaks the caption of a boundary, if there is one and it can be spoken. -/
def speak (p : Player T G σ) (index : Nat) : Player T G σ :=
  let p := { p with spoken := some index, pending := none }
  if !p.narrationEnabled then p
  else match p.boundary? index with
    | none => p
    | some boundary =>
      match p.captions.get? boundary.step, p.narrator with
      | some text, some narrator =>
        let token := p.lastToken + 1
        let (verdict, narrator) := Narrator.speak narrator token text
        let p := { p with lastToken := token, narrator := some narrator }
        match verdict with
        | .ok () => { p with pending := some token }.emit (.narrationStarted boundary.step token)
        | .error _ => p
      | _, _ => p

/-- Takes the cursor into a boundary. -/
def enter (p : Player T G σ) (index : Nat) : Player T G σ :=
  match p.boundary? index with
  | none => p
  | some boundary =>
    let p := { p with current := some index }.emit (.stepChanged boundary.step index)
    if p.state = .playing then p.speak index else p

/-- Takes the cursor into a boundary, if there is one. -/
def enter? (p : Player T G σ) (index : Option Nat) : Player T G σ :=
  match index with
  | some index => p.enter index
  | none => p

/-- Goes back to the beginning and breaks narration off. -/
def rewind (p : Player T G σ) : Player T G σ :=
  let p := p.cancelNarration
  let p := { p with clock := p.clock.seek 0, current := none, spoken := none }
  p.display p.timeline.initialFrame

/-- What happens at the end of the timeline. -/
def finish (p : Player T G σ) : Player T G σ :=
  let p := p.emit .finished
  if p.looping then
    let p := p.rewind
    let p := { p with clock := p.clock.play }
    p.enter? (p.timeline.boundaryAt? 0)
  else { p with clock := p.clock.pause }.setState .paused

/-- The boundary at whose end the cursor has to wait for the narrator. -/
def waitingAt? (p : Player T G σ) (now : T) : Option (Boundary T) :=
  if p.pending.isSome then p.currentBoundary?.filter (fun b => b.stop ≤ now) else none

/-- Waits for the narrator at the end of a boundary. -/
def autoPause (p : Player T G σ) (b : Boundary T) : Player T G σ :=
  let p := { p with clock := (p.clock.seek b.stop).pause, autoPaused := true }
  (p.setState .paused).emit (.autoPaused b.step)

/-- Finishes if the cursor is at the end of the timeline. -/
def settle (p : Player T G σ) (now : T) : Player T G σ :=
  if p.duration ≤ now then p.finish else p

/-- Walks over the boundaries that follow, each with its index, as far as they have started. -/
def walk (now : T) : List (Boundary T × Nat) → Player T G σ → Player T G σ
  | [], p =>
    match p.waitingAt? now with
    | some b => p.autoPause b
    | none => p.settle now
  | (next, index) :: rest, p =>
    match p.waitingAt? now with
    | some b => p.autoPause b
    | none => if next.start ≤ now then walk now rest (p.enter index) else p.settle now

/-- The index of the boundary that comes next. -/
def nextIndex (p : Player T G σ) : Nat :=
  match p.current with
  | some index => index + 1
  | none => 0

/-- Takes the cursor into every boundary that has started by now. It waits at the end of a step
whose narration is not complete. -/
def sync (p : Player T G σ) (now : T) : Player T G σ :=
  walk now (p.timeline.boundaries.zipIdx.drop p.nextIndex) p

/-! ### Transport -/

/-- Starts or resumes playback; at the end it starts again from the beginning. -/
def play (p : Player T G σ) : Player T G σ :=
  if p.state = .playing then p
  else
    let p := if p.duration ≤ p.time then p.rewind else p
    -- Resuming by hand ends the waiting for the current utterance.
    let p := if p.autoPaused then { p with autoPaused := false, pending := none } else p
    let p := { p with clock := p.clock.play }.setState .playing
    let p := p.mapNarrator Narrator.resume
    let p := match p.current with
      | none => p.enter? (p.timeline.boundaryAt? p.time)
      | some index => if p.spoken = some index then p else p.speak index
    (p.sync p.time).render

/-- Holds the clock and the narrator. -/
def pause (p : Player T G σ) : Player T G σ :=
  let p := { p with autoPaused := false }
  if p.state = .stopped then p
  else
    let p := { p with clock := p.clock.pause }.mapNarrator Narrator.pause
    p.setState .paused

/-- Goes back to the beginning and to the state before any cue. -/
def stop (p : Player T G σ) : Player T G σ :=
  let p := p.cancelNarration
  let p := { p with clock := p.clock.pause.seek 0, current := none, spoken := none }
  let p := p.setState .stopped
  p.display p.timeline.initialFrame

/-- Moves the cursor to a time inside a boundary. -/
def seekTo (p : Player T G σ) (time : T) (index : Option Nat) : Player T G σ :=
  let p := p.cancelNarration
  let p := { p with clock := p.clock.seek time }
  let p := if p.state = .stopped then p.setState .paused else p
  let p := { p with current := none, spoken := none }
  (p.enter? index).render

/-- Moves the cursor to a time, cut to the timeline. What is not a number is the beginning. -/
def seek (p : Player T G σ) (time : T) : Player T G σ :=
  let time := if Scalar.isNaN time then 0 else p.timeline.cut time
  p.seekTo time (p.timeline.boundaryAt? time)

/-- Moves the cursor to the start of a boundary. -/
def seekBoundary (p : Player T G σ) (index : Nat) : Player T G σ :=
  match p.boundary? index with
  | some b => p.seekTo b.start (some index)
  | none => p

/-- Moves the cursor to the start of a step, if there is such a step. -/
def seekStep (p : Player T G σ) (step : Nat) : Bool × Player T G σ :=
  match p.timeline.boundaryOfStep? step with
  | some index => (true, p.seekBoundary index)
  | none => (false, p)

/-- Moves the cursor to the start of the next step, if there is one. -/
def nextStep (p : Player T G σ) : Bool × Player T G σ :=
  if p.timeline.boundaries.length ≤ p.nextIndex then (false, p)
  else (true, p.seekBoundary p.nextIndex)

/-- Moves the cursor to the start of the step before, or of the first step. -/
def previousStep (p : Player T G σ) : Bool × Player T G σ :=
  if p.timeline.boundaries.isEmpty then (false, p)
  else
    let previous := match p.current with
      | some index => index - 1
      | none => 0
    (true, p.seekBoundary previous)

/-- Takes in the completion of an utterance. It counts only if it is the one that is pending,
and playback goes on only if it waits for it. -/
def onNarrationEnd (p : Player T G σ) (token : Nat) : Player T G σ :=
  if p.pending ≠ some token then p
  else
    let p := { p with pending := none }
    if !p.autoPaused then p
    else
      let p := { p with autoPaused := false, clock := p.clock.play }
      let p := (p.setState .playing).emit .resumed
      (p.sync p.time).render

/-- Lets the narrator know of the time that has passed, and takes in a completion. -/
def advanceNarrator (p : Player T G σ) (elapsed : T) : Player T G σ :=
  match p.narrator with
  | none => p
  | some narrator =>
    let (token, narrator) := Narrator.advance narrator elapsed
    let p := { p with narrator := some narrator }
    match token with
    | some token => p.onNarrationEnd token
    | none => p

/-- Lets time pass. -/
def tick (p : Player T G σ) (elapsed : T) : Player T G σ :=
  let p := p.advanceNarrator elapsed
  if p.state ≠ .playing then p
  else
    let p := { p with clock := p.clock.advance elapsed }
    let p := p.sync p.time
    (p.emit (.progress p.time p.duration)).render

end Player

end Storyboard
