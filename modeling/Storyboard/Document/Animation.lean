import Storyboard.Diagram.Step
import Storyboard.Document.Fault
import Storyboard.Document.Line
import Storyboard.Document.PropertyLine

/-!
# The animation block

A step is opened by a header `step N: action targets`; the indented `key: value` lines under it
are its properties. Lines under a header that was refused are dropped without a word.
-/

namespace Storyboard.Document

open Text

/-- The words that may stand before the targets of a camera step. -/
def cameraModes : List String := ["fitAll", "fitNodes", "focus", "zoom", "pan"]

/-- The keys whose values are times. -/
def timeKeys : List String := ["duration", "delay", "stagger", "speed"]

/-- A header taken apart, its action not yet looked up. -/
structure StepHeader where
  number : Nat
  action : String
  /-- What follows the action, trimmed. -/
  targets : List Char
  deriving DecidableEq, Repr

def stepHeader? (cs : List Char) : Option StepHeader := do
  let (number, rest) ← takeStepLabel? cs
  let rest := skipLabelSpaces rest
  let action := rest.takeWhile Char.isAlpha
  if action.isEmpty then none
  else some ⟨number, String.ofList action, trim (rest.dropWhile Char.isAlpha)⟩

/-- One target of a list; a pair needs both its ends. -/
def target? (cs : List Char) : Option Target :=
  match splitAtMark? ['-', '>'] cs with
  | some (source, target) =>
    let source := trim source
    let target := trim target
    if source.isEmpty || target.isEmpty then none
    else some (.pair (String.ofList source) (String.ofList target))
  | none => some (.entity (String.ofList cs))

/-- The pieces between commas, trimmed, without the empty ones. -/
def listItems (cs : List Char) : List (List Char) :=
  ((splitWhere (· = ',') cs).map trim).filter (fun t => !t.isEmpty)

def targetsOf (cs : List Char) : List Target :=
  (listItems cs).filterMap target?

/-- The first word of a text and what follows the white space character after it. -/
def splitFirstWord (cs : List Char) : List Char × List Char :=
  (cs.takeWhile (fun c => !isBlank c), (cs.dropWhile (fun c => !isBlank c)).drop 1)

/-- The mode that leads the targets of a camera step, if there is one, and the targets. -/
def splitCameraMode (cs : List Char) : Option String × List Char :=
  let (first, rest) := splitFirstWord cs
  let word := String.ofList first
  if cameraModes.contains word then (some word, trim rest) else (none, cs)

variable {T : Type} [Scalar T]

/-- The step that a header opens, before any property line. -/
def StepHeader.open (h : StepHeader) (action : Action) : Step T :=
  match action with
  | .camera =>
    let (mode, targets) := splitCameraMode h.targets
    let properties : Properties T := match mode with
      | some word => OrderedMap.empty.insert Step.cameraModeKey (.text word)
      | none => {}
    { number := h.number, action, targets := targetsOf targets, properties }
  | _ => { number := h.number, action, targets := targetsOf h.targets }

/-- A step with the place of its header. -/
structure PlacedStep (T : Type) where
  step : Step T
  span : Span
  deriving Repr, Inhabited

/-- The entry that is open. -/
inductive OpenStep (T : Type) where
  | nothing
  /-- The last header was refused. -/
  | refused
  | step (s : PlacedStep T)
  deriving Repr, Inhabited

/-- The steps that are complete, and the entry that is open. -/
structure AnimationState (T : Type) where
  steps : List (PlacedStep T) := []
  opened : OpenStep T := .nothing
  deriving Repr, Inhabited

variable {G : Type} [Scalar G] [Narrow T G]

variable (G) in
/-- What is said of the properties of a complete step. The defaults stand in for them. -/
def checkProperties (s : PlacedStep T) : List Diagnostic :=
  let properties := s.step.properties
  let times := timeKeys.flatMap fun key =>
    if (properties.get? key).isSome && (properties.seconds? key).isNone then
      [(Fault.invalidTime key).located s.span]
    else []
  let color := match properties.get? "color" with
    | some value =>
      let text := value.render
      if (Color.read? T text : Option (Color G)).isNone then
        [(Fault.invalidHighlight text).located s.span]
      else []
    | none => []
  times ++ color

namespace AnimationState

variable (G) in
/-- Completes the open step, if there is one. -/
def finish (s : AnimationState T) : AnimationState T × List Diagnostic :=
  match s.opened with
  | .step step => ({ steps := s.steps ++ [step] }, checkProperties G step)
  | _ => ({ steps := s.steps }, [])

/-- Opens the step of a header line, unless the header is refused. -/
def start (s : AnimationState T) (l : Line) : AnimationState T × List Diagnostic :=
  match stepHeader? l.trimmed with
  | none => ({ s with opened := .refused }, [Fault.malformedStep.located l.span])
  | some header =>
    match Action.ofName? header.action with
    | none =>
      ({ s with opened := .refused }, [(Fault.unknownAction header.action).located l.span])
    | some action => ({ s with opened := .step ⟨header.open action, l.span⟩ }, [])

/-- A line that opens no step. -/
def property (s : AnimationState T) (l : Line) : AnimationState T × List Diagnostic :=
  match l.isIndented, splitProperty? l.trimmed, s.opened with
  | true, some (key, value), .step step =>
    let properties := step.step.properties.insert (String.ofList key) (.ofText value)
    ({ s with opened := .step { step with step := { step.step with properties } } }, [])
  | true, some _, .refused => (s, [])
  | true, some _, .nothing => (s, [Fault.orphanProperty.located l.span])
  | _, _, _ => (s, [(Fault.unrecognizedLine .animation).located l.span])

variable (G) in
def step (s : AnimationState T) (l : Line) : AnimationState T × List Diagnostic :=
  if looksLikeStep l.trimmed then
    let (s, said) := s.finish G
    let (s, saidOfHeader) := s.start l
    (s, said ++ saidOfHeader)
  else s.property l

end AnimationState

variable (G) in
/-- Reads the animation block into steps, in the order of the text. -/
def stepsOf (lines : List Line) : List (PlacedStep T) × List Diagnostic :=
  let (s, said) := scanMeaningful (AnimationState.step G) {} lines
  let (s, saidAtEnd) := s.finish G
  (s.steps, said ++ saidAtEnd)

end Storyboard.Document
