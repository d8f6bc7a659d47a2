import Storyboard.Playback.Player

/-!
# Shared players

A player together with the completions that were delivered and not yet taken in. Completions may
come at any time, also from inside a call; each takes effect at the start of the next call, in
the order of delivery.
-/

namespace Storyboard

structure SharedPlayer (T G σ : Type) where
  player : Player T G σ
  /-- Tokens of complete utterances, the oldest first. -/
  completed : List Nat := []
  deriving Repr

namespace SharedPlayer

variable {T G σ : Type}

/-- Delivers a completion. -/
def deliver (s : SharedPlayer T G σ) (token : Nat) : SharedPlayer T G σ :=
  { s with completed := s.completed ++ [token] }

variable [Scalar T] [Scalar G] [Narrow T G] [Narrator T σ]

/-- Takes in everything that was delivered. -/
def settled (s : SharedPlayer T G σ) : Player T G σ :=
  s.completed.foldl Player.onNarrationEnd s.player

/-- A player right after a call, with what its narrator has called back. -/
def ofPlayer (p : Player T G σ) : SharedPlayer T G σ :=
  match p.narrator with
  | none => { player := p }
  | some narrator =>
    let (tokens, narrator) := Narrator.takeReports narrator
    { player := { p with narrator := some narrator }, completed := tokens }

/-- Calls into the player. -/
def call {α : Type} (s : SharedPlayer T G σ) (f : Player T G σ → α × Player T G σ) :
    α × SharedPlayer T G σ :=
  let (answer, p) := f s.settled
  (answer, ofPlayer p)

end SharedPlayer

end Storyboard
