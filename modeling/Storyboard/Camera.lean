import Storyboard.Layout.Basic

/-!
# The camera

A camera move says what to frame and how; against a layout it ends on a viewport. While a move
runs, the viewport lies between the end of the move before it and its own.
-/

namespace Storyboard

inductive CameraMode where
  | fitAll
  | fitNodes (ids : List String)
  /-- One entity, magnified. -/
  | focus (id : String)
  deriving DecidableEq, Repr, Inhabited

structure CameraMove (G : Type) where
  mode : CameraMode
  padding : G
  zoom : G
  deriving DecidableEq, Repr

variable {G : Type} [Scalar G]

namespace CameraMove

def defaultPadding : G := 50

def defaultZoom : G := 2

/-- The move that shows the whole scene. -/
def overview : CameraMove G := ⟨.fitAll, defaultPadding, defaultZoom⟩

instance : Inhabited (CameraMove G) := ⟨overview⟩

/-- The viewport on which the move ends, if its target is placed. -/
def viewport? (m : CameraMove G) (l : Layout G) : Option (Bounds G) :=
  let padding := Insets.uniform m.padding
  match m.mode with
  | .fitAll => l.bounds?.map (Bounds.pad · padding)
  | .fitNodes ids => (l.boundsOf? ids).map (Bounds.pad · padding)
  | .focus id => do
    let target ← l.boundsOf? [id]
    let scene := (l.bounds?.map (Bounds.pad · padding)).getD target
    return (scene.translate (target.center.sub scene.center)).zoom m.zoom

end CameraMove

/-- The camera at one instant: the move that runs and the one before it. -/
structure CameraState (G : Type) where
  current : CameraMove G
  previous : Option (CameraMove G) := none
  progress : G
  deriving Repr

/-- The viewport of the instant. The first move starts from the whole scene. -/
def CameraState.viewport? (s : CameraState G) (l : Layout G) : Option (Bounds G) := do
  let target ← s.current.viewport? l
  let start := ((s.previous.getD .overview).viewport? l).getD target
  return start.lerp target (Scalar.clamp 0 1 s.progress)

end Storyboard
