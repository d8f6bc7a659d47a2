import Storyboard.Camera
import Storyboard.Color.Render
import Storyboard.Diagram.Effect
import Storyboard.Timeline.Ease

/-!
# Operations and cues

An operation changes one entity or the camera; a cue is an operation with its time, its duration
and its curve.
-/

namespace Storyboard

inductive Operation (G : Type) where
  /-- Marks the start of a group of steps. -/
  | step (number : Nat)
  | enter (target : String) (effect : Entrance)
  | leave (target : String) (effect : Exit)
  | recolor (target : String) (color : Color G)
  | glow (target : String)
  | pulse (target : String)
  /-- Undoes a highlight. There is a color only if one was recorded. -/
  | restore (target : String) (color : Option (Color G))
  | draw (edge : String) (flow : Flow)
  | revealLabel (edge : String)
  | camera (move : CameraMove G)
  /-- A shift by an offset, or to an offset from the place in the layout. -/
  | move (target : String) (offset : Point G) (relative : Bool)
  | transform (target : String) (scale rotation : Option G)
  deriving DecidableEq, Repr

variable {T G : Type}

namespace Operation

/-- The entity that the operation changes. -/
def target? : Operation G → Option String
  | enter t _ | leave t _ | recolor t _ | glow t | pulse t | restore t _ | draw t _
  | revealLabel t | move t _ _ | transform t _ _ => some t
  | step _ | camera _ => none

def name : Operation G → String
  | step _ => "step"
  | enter .. => "enter"
  | leave .. => "exit"
  | recolor .. => "recolor"
  | glow _ => "glow"
  | pulse _ => "pulse"
  | restore .. => "restore"
  | draw .. => "draw"
  | revealLabel _ => "reveal-label"
  | camera _ => "camera"
  | move .. => "move"
  | transform .. => "transform"

variable [Scalar G]

/-- The mode of a camera move with every id hidden. -/
def cameraText : CameraMode → String
  | .fitAll => "FitAll"
  | .fitNodes ids => "FitNodes([" ++ ", ".intercalate (ids.map fun _ => "Id(_)") ++ "])"
  | .focus _ => "Focus(Id(_))"

def render (o : Operation G) : String :=
  match o with
  | step number => "step " ++ toString number
  | enter t effect => "enter " ++ t ++ " (" ++ effect.name ++ ")"
  | leave t effect => "exit " ++ t ++ " (" ++ effect.name ++ ")"
  | recolor t color => "recolor " ++ t ++ " -> " ++ color.render
  | draw e flow => "draw " ++ e ++ " (" ++ flow.name ++ ")"
  | camera m => "camera " ++ cameraText m.mode
  | other => match other.target? with
    | some t => other.name ++ " " ++ t
    | none => other.name

end Operation

structure Cue (T G : Type) where
  operation : Operation G
  start : T
  duration : T
  ease : Ease
  deriving DecidableEq, Repr

namespace Cue

variable [Scalar T]

/-- A cue at a time. A negative duration counts as zero. -/
def of (operation : Operation G) (start duration : T) (ease : Ease) : Cue T G :=
  ⟨operation, start, Scalar.greatest duration 0, ease⟩

def stop (c : Cue T G) : T := c.start + c.duration

/-- The progress at a time: zero before the start, one from the end on. -/
def progress (c : Cue T G) (time : T) : T :=
  if time < c.start then 0
  else if c.stop ≤ time then 1
  else c.ease.apply ((time - c.start) / c.duration)

variable [Scalar G]

/-- One line: start, duration and operation. -/
def render (c : Cue T G) : String :=
  Text.padLeft 7 (Scalar.renderFixed 3 c.start) ++ "s +" ++
    Scalar.renderFixed 3 c.duration ++ "s  " ++ c.operation.render

end Cue

end Storyboard
