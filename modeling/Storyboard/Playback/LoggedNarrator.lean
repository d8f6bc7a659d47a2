import Storyboard.Playback.SimulatedNarrator

/-!
# The logged narrator

A narrator that keeps a log of what it is asked to do, around a simulated one. It can be set up
to answer in different ways, so that a player can be watched under each of them.
-/

namespace Storyboard

/-- How utterances are answered. -/
inductive SpeechKind where
  /-- They are handed to the simulated narrator. -/
  | simulated
  /-- They are accepted, and their completions come from elsewhere. -/
  | external
  /-- They are accepted and reported complete at once. -/
  | instant
  /-- They are refused. -/
  | broken
  deriving DecidableEq, Repr, Inhabited

structure LoggedNarrator (T : Type) where
  inner : SimulatedNarrator T
  kind : SpeechKind
  /-- Tokens of utterances that fail. -/
  failing : List Nat := []
  /-- What has been asked, the oldest first. -/
  log : List String := []
  /-- Completions reported and not yet taken. -/
  reports : List Nat := []
  deriving Repr

namespace LoggedNarrator

variable {T : Type} [Scalar T]

def note (s : LoggedNarrator T) (line : String) : LoggedNarrator T :=
  { s with log := s.log ++ [line] }

/-- Deals with an utterance, before any failure. -/
def answer (s : LoggedNarrator T) (token : Nat) (text : String) : LoggedNarrator T :=
  match s.kind with
  | .simulated => { s with inner := s.inner.speak token text }
  | .instant => { s with reports := s.reports ++ [token] }
  | .external | .broken => s

/-- Whether an utterance is accepted. A token set up to fail names itself also where everything
is refused. -/
def verdict (s : LoggedNarrator T) (token : Nat) : Except NarrationError Unit :=
  if s.failing.contains token then .error (.failed ("utterance " ++ tokenText token))
  else if s.kind = .broken then .error .unavailable
  else .ok ()

def speak (s : LoggedNarrator T) (token : Nat) (text : String) :
    Except NarrationError Unit × LoggedNarrator T :=
  let line := "speak " ++ tokenText token ++ " " ++ text
  match s.verdict token with
  | .ok () => (.ok (), (s.answer token text).note line)
  | .error e => (.error e, (s.answer token text).note (line ++ ": " ++ e.message))

instance : Narrator T (LoggedNarrator T) where
  speak := speak
  pause s := { s with inner := s.inner.pause }.note "pause"
  resume s := { s with inner := s.inner.resume }.note "resume"
  cancel s := { s with inner := s.inner.cancel }.note "cancel"
  advance s elapsed :=
    let (token, inner) := s.inner.advance elapsed
    (token, { s with inner })
  takeReports s := (s.reports, { s with reports := [] })

end LoggedNarrator

end Storyboard
