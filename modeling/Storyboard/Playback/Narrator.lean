import Storyboard.Number.Scalar

/-!
# Narrators

A narrator speaks one utterance at a time. Each carries a token, and completions are told by
token: either by `advance`, for a narrator that runs on the player's time, or by calling back.
-/

namespace Storyboard

/-- Why an utterance could not be started. -/
inductive NarrationError where
  | unavailable
  | failed (reason : String)
  deriving DecidableEq, Repr

def NarrationError.message : NarrationError → String
  | unavailable => "narration engine unavailable"
  | failed reason => "speech failed: " ++ reason

/-- A narrator with states `σ`. Nothing is promised of what it answers. -/
class Narrator (T : outParam Type) (σ : Type) where
  /-- Starts an utterance in place of the current one. -/
  speak (s : σ) (token : Nat) (text : String) : Except NarrationError Unit × σ
  pause (s : σ) : σ
  resume (s : σ) : σ
  /-- Breaks the current utterance off. -/
  cancel (s : σ) : σ
  /-- Lets time pass, and tells the token of an utterance that is complete. -/
  advance (s : σ) (elapsed : T) : Option Nat × σ
  /-- Takes the completions that it has called back by itself, the oldest first. -/
  takeReports (s : σ) : List Nat × σ

/-- The text of a token. -/
def tokenText (token : Nat) : String := "#" ++ toString token

end Storyboard
