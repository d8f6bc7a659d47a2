import Storyboard.Playback.Player

/-!
# Commands to a player

What a host asks of a player, as data, and what the player answers. A run is a list of commands
performed one after the other.
-/

namespace Storyboard

inductive Command (T : Type) where
  | play
  | pause
  | stop
  | seek (time : T)
  | seekStep (step : Nat)
  | nextStep
  | previousStep
  | setSpeed (speed : T)
  | tick (elapsed : T)
  /-- The completion of an utterance. -/
  | narrationEnd (token : Nat)
  deriving DecidableEq, Repr

inductive Reply (T : Type) where
  | done
  /-- Whether there was a step to go to. -/
  | moved (found : Bool)
  | accepted
  | refused (e : PlayerError T)
  deriving Repr

namespace Player

variable {T G σ : Type} [Scalar T] [Scalar G] [Narrow T G] [Narrator T σ]

/-- Performs a command. A command that is refused changes nothing. -/
def perform (p : Player T G σ) : Command T → Reply T × Player T G σ
  | .play => (.done, p.play)
  | .pause => (.done, p.pause)
  | .stop => (.done, p.stop)
  | .seek time => (.done, p.seek time)
  | .seekStep step => let (found, p) := p.seekStep step; (.moved found, p)
  | .nextStep => let (found, p) := p.nextStep; (.moved found, p)
  | .previousStep => let (found, p) := p.previousStep; (.moved found, p)
  | .setSpeed speed =>
    match p.setSpeed speed with
    | .ok p => (.accepted, p)
    | .error e => (.refused e, p)
  | .tick elapsed => (.done, p.tick elapsed)
  | .narrationEnd token => (.done, p.onNarrationEnd token)

/-- The player after a run. -/
def run (p : Player T G σ) (commands : List (Command T)) : Player T G σ :=
  commands.foldl (fun p c => (p.perform c).2) p

end Player

end Storyboard
