import Storyboard.Failure
import Storyboard.Playback.SimulatedNarrator
import Storyboard.Text.Blank

/-!
# Playback without a screen

A program is played in ticks of a fixed length, with simulated narration, until it is over or its
time is up. Each round first writes what has happened and then lets one tick pass.
-/

namespace Storyboard.CommandLine

/-- How playback came to its end. -/
inductive Ending where
  | finished
  /-- The time was up before. -/
  | outOfTime
  deriving DecidableEq, Repr

namespace Headless

variable {T G : Type} [Scalar T] [Scalar G] [Narrow T G]

/-- A line about an event, if it is one that is written. -/
def line? {σ : Type} (p : Player T G σ) (e : PlayerEvent T) : Option String :=
  let at? (text : String) := some (Text.padLeft 8 (Scalar.renderFixed 3 p.time) ++ "s  " ++ text)
  match e with
  | .stepChanged step _ =>
    let caption := match p.caption? step with
      | some caption => "  \"" ++ caption ++ "\""
      | none => ""
    at? ("step " ++ toString step ++ caption)
  | .autoPaused step => at? ("waiting for narration of step " ++ toString step)
  | .resumed => at? "resumed"
  | .finished => at? "finished"
  | _ => none

def isFinished (e : PlayerEvent T) : Bool :=
  match e with
  | .finished => true
  | _ => false

/-- Plays on until the end, in ticks of a given length, and gives all lines with the ending. There is
no answer if the end does not come within a number of rounds. -/
def rounds {σ : Type} [Narrator T σ] (tick limit : T) (n : Nat) (p : Player T G σ) (elapsed : T)
    (written : List String) : Option (List String × Ending) :=
  match n with
  | 0 => none
  | n + 1 =>
    let (events, p) := p.drainEvents
    let written := written ++ events.filterMap (line? p)
    if events.any isFinished then some (written, .finished)
    else if limit ≤ elapsed then some (written, .outOfTime)
    else rounds tick limit n (p.tick tick) (elapsed + tick) written

/-- The length of a tick at a rate, or at the default rate if that cannot be one. -/
def tickLength (rate : T) : T := 1 / (if (0 : T) < rate then rate else 30)

end Headless

end Storyboard.CommandLine
