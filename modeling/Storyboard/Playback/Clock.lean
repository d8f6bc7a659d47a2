import Storyboard.Timeline.Basic

/-!
# The clock

A clock holds cues and a cursor. The cursor moves only while the clock is playing, as fast as its
speed says, and stops at the end of the last cue.
-/

namespace Storyboard

structure Clock (T G : Type) where
  cues : List (Cue T G) := []
  time : T
  speed : T
  playing : Bool := false
  /-- The end of the last cue. -/
  duration : T
  deriving Repr

namespace Clock

variable {T G : Type} [Scalar T]

/-- A clock without cues, at the beginning and at rest. -/
def idle : Clock T G := { time := 0, speed := 1, duration := 0 }

instance : Inhabited (Clock T G) := ⟨idle⟩

def schedule (c : Clock T G) (operation : Operation G) (start duration : T) (ease : Ease) :
    Clock T G :=
  let cue : Cue T G := .of operation start duration ease
  { c with cues := c.cues ++ [cue], duration := Scalar.greatest c.duration cue.stop }

/-- Drops every cue and goes back to the beginning. -/
def clear (c : Clock T G) : Clock T G := { c with cues := [], time := 0, duration := 0 }

def play (c : Clock T G) : Clock T G := { c with playing := true }

def pause (c : Clock T G) : Clock T G := { c with playing := false }

/-- Moves the cursor to a time, cut to the length of the clock. -/
def seek (c : Clock T G) (time : T) : Clock T G :=
  { c with time := Scalar.clamp 0 c.duration time }

/-- Whether a number can be a speed. -/
def isSpeed (speed : T) : Bool := decide ((0 : T) < speed) && Scalar.isFinite speed

/-- Changes the speed. What cannot be a speed changes nothing. -/
def setSpeed (c : Clock T G) (speed : T) : Clock T G :=
  if isSpeed speed then { c with speed } else c

/-- Lets time pass. -/
def advance (c : Clock T G) (elapsed : T) : Clock T G :=
  if c.playing ∧ (0 : T) < elapsed then
    { c with time := Scalar.least (c.time + elapsed * c.speed) c.duration }
  else c

/-- Takes over the cues of a timeline. -/
def install [Scalar G] (c : Clock T G) (t : Timeline T G) : Clock T G :=
  t.cues.foldl (fun c cue => c.schedule cue.operation cue.start cue.duration cue.ease) c.clear

end Clock

end Storyboard
