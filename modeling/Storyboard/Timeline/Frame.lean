import Storyboard.Timeline.Operation

/-!
# Frames

What there is to see at one instant. `Appearance.apply` lets an operation change an entity, and
`Frame.sample` folds all cues that have started over the appearances at the beginning.
-/

namespace Storyboard

/-- An entrance or an exit that is under way. -/
inductive Motion (G : Type) where
  | enter (effect : Entrance) (progress : G)
  | leave (effect : Exit) (progress : G)
  deriving Repr

/-- How a node or an edge looks. The fill of an edge is the color of its line. -/
structure Appearance (G : Type) where
  opacity : G
  fill : Option (Color G)
  glow : G
  scale : G
  /-- Passing extra scale. -/
  pulse : G
  offset : Point G
  /-- In degrees. -/
  rotation : G
  motion : Option (Motion G)
  /-- The share of an edge that is drawn. -/
  drawn : G
  labelOpacity : G
  deriving Repr

variable {T G : Type} [Scalar G]

/-- The value a fraction `progress` of the way, and exactly `target` at the end. -/
def tween (source target progress : G) : G :=
  if (1 : G) ≤ progress then target else source + (target - source) * progress

namespace Appearance

def hidden : Appearance G :=
  { opacity := 0, fill := none, glow := 0, scale := 1, pulse := 0, offset := Point.zero
    rotation := 0, motion := none, drawn := 0, labelOpacity := 0 }

def ofNode (visible : Bool) (fill : Color G) : Appearance G :=
  { hidden with opacity := if visible then 1 else 0, fill := some fill }

/-- Edges start hidden and undrawn. -/
def ofEdge (stroke : Color G) : Appearance G :=
  { hidden with fill := some stroke }

def isVisible (a : Appearance G) : Bool := decide ((0 : G) < a.opacity)

/-- The scale with a running pulse. -/
def effectiveScale (a : Appearance G) : G := a.scale * (1 + a.pulse)

/-- The greatest extra scale of a pulse. -/
def pulseHeight : G := 0.1

/-- Blends the fill towards a color. -/
def blend (a : Appearance G) (color : Color G) (progress : G) : Option (Color G) :=
  some ((a.fill.getD color).mix color progress)

/-- The appearance with an operation applied, whose progress is given. A change starts from what
is there when it is applied. -/
def apply (a : Appearance G) (o : Operation G) (progress : G) : Appearance G :=
  let running := decide ((0 : G) < progress ∧ progress < 1)
  match o with
  | .enter _ effect =>
    { a with
      opacity := tween a.opacity 1 progress
      motion := if running then some (.enter effect progress) else none }
  | .leave _ effect =>
    { a with
      opacity := tween a.opacity 0 progress
      motion := if running then some (.leave effect progress) else none }
  | .recolor _ color => { a with fill := a.blend color progress }
  | .glow _ => { a with glow := tween a.glow 1 progress }
  | .pulse _ =>
    { a with pulse := if running then pulseHeight * Scalar.sinPi progress else 0 }
  | .restore _ color =>
    { a with
      fill := match color with
        | some color => a.blend color progress
        | none => a.fill
      glow := tween a.glow 0 progress
      scale := tween a.scale 1 progress
      pulse := 0 }
  | .draw _ _ =>
    { a with
      opacity := if (0 : G) < progress then 1 else a.opacity
      drawn := tween a.drawn 1 progress }
  | .revealLabel _ => { a with labelOpacity := tween a.labelOpacity 1 progress }
  | .move _ offset relative =>
    let goal := if relative then a.offset.add offset else offset
    { a with
      offset := if (1 : G) ≤ progress then goal else a.offset.lerp goal progress }
  | .transform _ scale rotation =>
    { a with
      scale := match scale with
        | some scale => tween a.scale scale progress
        | none => a.scale
      rotation := match rotation with
        | some rotation => tween a.rotation rotation progress
        | none => a.rotation }
  | .step _ | .camera _ => a

end Appearance

structure Frame (T G : Type) where
  time : T
  /-- The step whose group has started last. -/
  step : Option Nat := none
  states : OrderedMap String (Appearance G)
  camera : Option (CameraState G) := none
  deriving Repr

namespace Frame

/-- The frame with one operation applied. -/
def apply (f : Frame T G) (o : Operation G) (progress : G) : Frame T G :=
  match o with
  | .step number => { f with step := some number }
  | .camera move =>
    let previous := f.camera.map CameraState.current
    { f with camera := some ⟨move, previous, progress⟩ }
  | o =>
    match o.target? with
    | some id => { f with states := f.states.modify id (fun a => a.apply o progress) }
    | none => f

variable [Scalar T] [Narrow T G]

/-- The frame at a time. The cues are in the order of their starts. -/
def sample (initial : OrderedMap String (Appearance G)) (cues : List (Cue T G)) (time : T) :
    Frame T G :=
  (cues.takeWhile (fun c => c.start ≤ time)).foldl
    (fun f c => f.apply c.operation (narrow (c.progress time)))
    { time, states := initial }

/-- The viewport of the frame's camera, if there is a camera and it can be resolved. -/
def viewport? (f : Frame T G) (l : Layout G) : Option (Bounds G) :=
  f.camera.bind (fun c => c.viewport? l)

end Frame

end Storyboard
