import Storyboard.Diagram.Caption
import Storyboard.Diagram.Property
import Storyboard.Document.Fault
import Storyboard.Document.Line
import Storyboard.Document.PropertyLine

/-!
# The narration block

An entry is opened by a label `step N:`; its `title` and `text` lines make a caption.
-/

namespace Storyboard.Document

/-- The captions that are complete, and the one that is open. -/
structure NarrationState where
  captions : List Caption := []
  opened : Option Caption := none
  deriving Repr, Inhabited

namespace NarrationState

/-- Completes the open caption, if there is one. -/
def finish (s : NarrationState) : NarrationState :=
  { captions := s.captions ++ s.opened.toList }

/-- Sets a part of a caption. Other keys are passed over. -/
def setPart (c : Caption) (key value : List Char) : Caption :=
  let value := String.ofList (stripQuotes value)
  match String.ofList key with
  | "title" => { c with title := value }
  | "text" => { c with text := value }
  | _ => c

def step (s : NarrationState) (l : Line) : NarrationState × List Diagnostic :=
  if looksLikeStep l.trimmed then
    let s := s.finish
    match takeStepLabel? l.trimmed with
    | some (number, _) => ({ s with opened := some ⟨number, "", ""⟩ }, [])
    | none => (s, [Fault.malformedCaption.located l.span])
  else
    match splitProperty? l.trimmed, s.opened with
    | some (key, value), some caption =>
      ({ s with opened := some (setPart caption key value) }, [])
    | some _, none => (s, [Fault.orphanCaptionLine.located l.span])
    | none, _ => (s, [(Fault.unrecognizedLine .narration).located l.span])

end NarrationState

/-- Reads the narration block into captions, in the order of the text. -/
def captionsOf (lines : List Line) : List Caption × List Diagnostic :=
  let (s, said) := scanMeaningful NarrationState.step {} lines
  (s.finish.captions, said)

end Storyboard.Document
