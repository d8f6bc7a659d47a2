import Storyboard.Program

/-!
# Editing sessions

A session keeps the program of the last source that could be built. A source that cannot be
built is refused and changes nothing, so a preview never goes blank.
-/

namespace Storyboard

structure Session (T G : Type) where
  settings : Settings T G
  program : Option (Program T G) := none
  /-- How many sources were built. -/
  revision : Nat := 0
  deriving Repr

namespace Session

variable {T G : Type} [Scalar T] [Scalar G] [Narrow T G]

/-- Builds a source, and keeps its program if there is one. -/
def update (s : Session T G) (source : String) :
    Except BuildError (Program T G) × Session T G :=
  match Program.build s.settings source with
  | .ok program =>
    (.ok program, { s with program := some program, revision := s.revision + 1 })
  | .error e => (.error e, s)

/-- The session after a list of sources. -/
def updateAll (s : Session T G) (sources : List String) : Session T G :=
  sources.foldl (fun s source => (s.update source).2) s

end Session

end Storyboard
