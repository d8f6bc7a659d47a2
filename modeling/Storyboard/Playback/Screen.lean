import Storyboard.Timeline.Basic

/-!
# The screen

A screen shows frames. It resolves camera moves against a layout of its own and remembers what it
showed last.
-/

namespace Storyboard

structure Screen (T G : Type) where
  layout : Layout G
  /-- The number of frames shown. -/
  frames : Nat := 0
  lastFrame : Option (Frame T G) := none
  lastViewport : Option (Bounds G) := none
  deriving Repr

namespace Screen

variable {T G : Type} [Scalar G]

/-- Shows a frame, in the viewport of its camera if that can be resolved. -/
def render (s : Screen T G) (f : Frame T G) : Screen T G :=
  { s with
    frames := s.frames + 1
    lastFrame := some f
    lastViewport := f.camera.bind (fun c => c.viewport? s.layout) }

end Screen

end Storyboard
