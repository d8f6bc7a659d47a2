import Storyboard.Document.Fault
import Storyboard.Document.Line

/-!
# Sections of a document

A document is a body and blocks. A block runs from its marker, such as `@style`, to the next
`@end`; what is in between is taken as it is. Of several blocks of a kind the first counts, and
a block without an end is dropped.
-/

namespace Storyboard.Document

open Text

structure Block where
  /-- Where the block's marker is. -/
  marker : Span
  lines : List Line := []
  deriving Repr, Inhabited

structure Sections where
  /-- The lines outside every block. -/
  body : List Line := []
  blocks : OrderedMap BlockKind Block := {}
  deriving Repr, Inhabited

/-- The lines of a block; none if there is no such block. -/
def Sections.lines (s : Sections) (kind : BlockKind) : List Line :=
  ((s.blocks.get? kind).map Block.lines).getD []

/-- The first word after the sign of a marker line. -/
def markerName? (l : Line) : Option String :=
  match l.trimmed with
  | '@' :: rest => some (String.ofList ((words rest).headD []))
  | _ => none

/-- The sections found so far, and the block that is open. -/
structure SectionState where
  sections : Sections := {}
  opened : Option (BlockKind × Block) := none
  deriving Repr, Inhabited

namespace SectionState

/-- Stores a block that has come to its end, unless there is one of its kind. -/
def close (s : SectionState) (kind : BlockKind) (block : Block) :
    SectionState × List Diagnostic :=
  let s := { s with opened := none }
  match s.sections.blocks.get? kind with
  | some first => (s, [(Fault.duplicateBlock kind first.marker).located block.marker])
  | none =>
    let blocks := s.sections.blocks.insertNew kind block
    ({ s with sections := { s.sections with blocks } }, [])

/-- A line outside every block. -/
def outside (s : SectionState) (l : Line) : SectionState × List Diagnostic :=
  match markerName? l with
  | none => ({ s with sections := { s.sections with body := s.sections.body ++ [l] } }, [])
  | some name =>
    match BlockKind.ofName? name with
    | some kind => ({ s with opened := some (kind, ⟨l.span, []⟩) }, [])
    | none =>
      (s, [(if name = "end" then Fault.strayEnd else Fault.unknownMarker name).located l.span])

def step (s : SectionState) (l : Line) : SectionState × List Diagnostic :=
  match s.opened with
  | some (kind, block) =>
    if markerName? l = some "end" then s.close kind block
    else ({ s with opened := some (kind, { block with lines := block.lines ++ [l] }) }, [])
  | none => s.outside l

/-- What is said of a block that is still open at the end. -/
def unterminated (s : SectionState) : List Diagnostic :=
  match s.opened with
  | some (kind, block) => [(Fault.unterminatedBlock kind).located block.marker]
  | none => []

end SectionState

/-- Splits a document into its sections. -/
def sectionsOf (lines : List Line) : Sections × List Diagnostic :=
  let (s, said) := scan SectionState.step {} lines
  (s.sections, said ++ s.unterminated)

end Storyboard.Document
