import Storyboard.Diagram.Options
import Storyboard.Document.Fault
import Storyboard.Document.Line
import Storyboard.Document.PropertyLine

/-!
# The config block

Each line sets one document option. A value that does not fit its key is reported and changes
nothing.
-/

namespace Storyboard.Document

variable {T : Type} [Scalar T]

def setOption (o : DocumentOptions T) (l : Line) : DocumentOptions T × List Diagnostic :=
  match splitProperty? l.trimmed with
  | none => (o, [(Fault.unrecognizedLine .config).located l.span])
  | some (key, value) =>
    let key := String.ofList key
    match o.set key (.ofText value) with
    | .ok o => (o, [])
    | .error fault => (o, [(Fault.invalidOption key fault.message).located l.span])

/-- Reads the config block. -/
def optionsOf (lines : List Line) : DocumentOptions T × List Diagnostic :=
  scanMeaningful setOption {} lines

end Storyboard.Document
