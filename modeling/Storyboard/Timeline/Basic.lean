import Storyboard.Timeline.Frame

/-!
# Timelines

A timeline is a diagram's animation laid out in time: cues, one boundary for each group of steps,
and how everything looks before the first cue.
-/

namespace Storyboard

/-- The interval that a group of steps takes up. -/
structure Boundary (T : Type) where
  step : Nat
  start : T
  stop : T
  deriving DecidableEq, Repr

def Boundary.duration {T : Type} [Scalar T] (b : Boundary T) : T := b.stop - b.start

structure Timeline (T G : Type) where
  /-- In the order of their starts. -/
  cues : List (Cue T G)
  /-- One for each step number, in the order of play. -/
  boundaries : List (Boundary T)
  /-- What the entities look like before any cue, nodes before edges. -/
  initial : OrderedMap String (Appearance G)
  /-- The fill of each node before its first highlight. -/
  baseColors : OrderedMap String (Color G)
  deriving Repr

namespace Timeline

variable {T G : Type} [Scalar T] [Scalar G]

def duration (t : Timeline T G) : T :=
  match t.boundaries.getLast? with
  | some b => b.stop
  | none => 0

/-- A time cut to the timeline. -/
def cut (t : Timeline T G) (time : T) : T := Scalar.clamp 0 t.duration time

/-- The frame before any cue. -/
def initialFrame (t : Timeline T G) : Frame T G := { time := 0, states := t.initial }

/-- The frame at a time, which is cut to the timeline. -/
def sample [Narrow T G] (t : Timeline T G) (time : T) : Frame T G :=
  Frame.sample t.initial t.cues (t.cut time)

/-- The index of the boundary at a time, which is cut to the timeline. A start belongs to the
boundary that it opens, to the first one if there are several. -/
def boundaryAt? (t : Timeline T G) (time : T) : Option Nat :=
  if t.boundaries.isEmpty then none
  else
    let time := t.cut time
    let last := (t.boundaries.takeWhile (fun b => b.start ≤ time)).length - 1
    let shared := ((t.boundaries.take last).reverse.takeWhile (fun b => b.start == time)).length
    some (last - shared)

/-- The index of the first boundary of a step number. -/
def boundaryOfStep? (t : Timeline T G) (step : Nat) : Option Nat :=
  t.boundaries.findIdx? (fun b => b.step == step)

end Timeline

end Storyboard
