import Storyboard.Playback.Narrator
import Storyboard.Text.Blank

/-!
# The simulated narrator

A narrator that says nothing and takes its time: as long as reading the text aloud at a fixed
pace takes.
-/

namespace Storyboard

structure SimulatedNarrator (T : Type) where
  charsPerSecond : T
  /-- The token of the current utterance, and the seconds that are left of it. -/
  current : Option (Nat × T) := none
  paused : Bool := false
  deriving Repr

namespace SimulatedNarrator

variable {T : Type} [Scalar T]

def defaultPace : T := 15

/-- A narrator of a pace, or of the default pace if that cannot be one. -/
def ofPace (charsPerSecond : T) : SimulatedNarrator T :=
  if (0 : T) < charsPerSecond ∧ Scalar.isFinite charsPerSecond then { charsPerSecond }
  else { charsPerSecond := defaultPace }

/-- The seconds that a text takes. White space at its ends does not count. -/
def estimate (s : SimulatedNarrator T) (text : String) : T :=
  Scalar.ofNat (Text.trim text.toList).length / s.charsPerSecond

def isSpeaking (s : SimulatedNarrator T) : Bool := s.current.isSome

def remaining? (s : SimulatedNarrator T) : Option T := s.current.map Prod.snd

def speak (s : SimulatedNarrator T) (token : Nat) (text : String) : SimulatedNarrator T :=
  { s with current := some (token, s.estimate text), paused := false }

def pause (s : SimulatedNarrator T) : SimulatedNarrator T := { s with paused := true }

def resume (s : SimulatedNarrator T) : SimulatedNarrator T := { s with paused := false }

def cancel (s : SimulatedNarrator T) : SimulatedNarrator T :=
  { s with current := none, paused := false }

def advance (s : SimulatedNarrator T) (elapsed : T) : Option Nat × SimulatedNarrator T :=
  match s.paused, s.current with
  | false, some (token, remaining) =>
    let left := remaining - elapsed
    if (0 : T) < left then (none, { s with current := some (token, left) })
    else (some token, { s with current := none })
  | _, _ => (none, s)

instance : Narrator T (SimulatedNarrator T) where
  speak s token text := (.ok (), s.speak token text)
  pause := pause
  resume := resume
  cancel := cancel
  advance := advance
  takeReports s := ([], s)

end SimulatedNarrator

end Storyboard
