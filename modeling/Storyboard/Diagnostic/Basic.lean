/-!
# Diagnostics

What is said about a document: messages with a severity, a code and labelled byte spans of the
source. `ParseFailure` is a list of them of which at least one is an error.
-/

namespace Storyboard

/-- The bytes from `start` up to `stop`. -/
structure Span where
  start : Nat
  stop : Nat
  deriving DecidableEq, Repr, Inhabited

namespace Span

/-- A span that ends no earlier than it starts. -/
def of (start stop : Nat) : Span := ⟨start, max start stop⟩

def length (s : Span) : Nat := s.stop - s.start

def isEmpty (s : Span) : Bool := s.start == s.stop

/-- The smallest span around both. -/
def union (s t : Span) : Span := ⟨min s.start t.start, max s.stop t.stop⟩

/-- The smallest span around all spans of a list, if there is one. -/
def unionAll? : List Span → Option Span
  | [] => none
  | s :: rest => some (rest.foldl union s)

end Span

inductive Severity where
  /-- Nothing can be played. -/
  | error
  /-- Something was left out, or a default was taken. -/
  | warning
  deriving DecidableEq, Repr, Inhabited

def Severity.name : Severity → String
  | error => "error"
  | warning => "warning"

/-- Whether the text breaks the grammar, or describes nothing that can be used. -/
inductive FailureKind where
  | grammar
  | meaning
  deriving DecidableEq, Repr, Inhabited

def FailureKind.name : FailureKind → String
  | grammar => "syntax"
  | meaning => "semantic"

/-- What a diagnostic is about. -/
inductive Code where
  | unterminatedBlock | duplicateBlock | unknownMarker
  | unrecognizedLine | emptyDocument | malformedHeader | unknownAction | orphanProperty
  | invalidDirection
  | noNodes | duplicateNode | invalidColor | unknownStyledNode | invalidOption | unknownTarget
  | invalidProperty
  deriving DecidableEq, Repr, Inhabited

namespace Code

def all : List Code :=
  [unterminatedBlock, duplicateBlock, unknownMarker, unrecognizedLine, emptyDocument,
    malformedHeader, unknownAction, orphanProperty, invalidDirection, noNodes, duplicateNode,
    invalidColor, unknownStyledNode, invalidOption, unknownTarget, invalidProperty]

def name : Code → String
  | unterminatedBlock => "E001"
  | duplicateBlock => "E002"
  | unknownMarker => "E003"
  | unrecognizedLine => "E100"
  | emptyDocument => "E101"
  | malformedHeader => "E102"
  | unknownAction => "E103"
  | orphanProperty => "E104"
  | invalidDirection => "E105"
  | noNodes => "E200"
  | duplicateNode => "E201"
  | invalidColor => "E202"
  | unknownStyledNode => "E203"
  | invalidOption => "E204"
  | unknownTarget => "E205"
  | invalidProperty => "E206"

def ofName? (name : String) : Option Code :=
  all.find? (fun c => c.name == name)

def description : Code → String
  | unterminatedBlock => "unterminated block"
  | duplicateBlock => "duplicate block"
  | unknownMarker => "unknown block marker"
  | unrecognizedLine => "unrecognized line"
  | emptyDocument => "empty document"
  | malformedHeader => "malformed step header"
  | unknownAction => "unknown animation action"
  | orphanProperty => "property outside of an entry"
  | invalidDirection => "invalid flowchart header"
  | noNodes => "diagram has no nodes"
  | duplicateNode => "duplicate node"
  | invalidColor => "invalid color"
  | unknownStyledNode => "style for unknown node"
  | invalidOption => "invalid config value"
  | unknownTarget => "unknown animation target"
  | invalidProperty => "invalid property value"

def kind : Code → FailureKind
  | noNodes | duplicateNode | invalidColor | unknownStyledNode | invalidOption | unknownTarget
  | invalidProperty => .meaning
  | _ => .grammar

theorem ofName?_name (c : Code) : ofName? c.name = some c := by
  cases c <;> rfl

end Code

/-- A span of the source with a remark. -/
structure Label where
  span : Span
  message : String
  /-- Whether it marks the cause, and not only something related. -/
  isPrimary : Bool := true
  deriving DecidableEq, Repr, Inhabited

structure Diagnostic where
  severity : Severity := .warning
  code : Option Code := none
  message : String
  labels : List Label := []
  help : Option String := none
  deriving DecidableEq, Repr, Inhabited

namespace Diagnostic

def isError (d : Diagnostic) : Bool := d.severity == .error

/-- One line: severity, code and message. -/
def render (d : Diagnostic) : String :=
  let code := match d.code with
    | some c => "[" ++ c.name ++ "]"
    | none => ""
  d.severity.name ++ code ++ ": " ++ d.message

end Diagnostic

/-- Why a document gives no diagram: everything found in it, warnings included. -/
structure ParseFailure where
  diagnostics : List Diagnostic
  deriving DecidableEq, Repr, Inhabited

namespace ParseFailure

def errors (f : ParseFailure) : List Diagnostic :=
  f.diagnostics.filter Diagnostic.isError

/-- The kind of the first error that has a code. -/
def kind (f : ParseFailure) : FailureKind :=
  match f.errors.findSome? Diagnostic.code with
  | some c => c.kind
  | none => .grammar

/-- The first error, and how many more there are. -/
def message (f : ParseFailure) : String :=
  match f.errors with
  | [] => ""
  | [first] => first.render
  | first :: rest => first.render ++ " (+" ++ toString rest.length ++ " more)"

end ParseFailure

end Storyboard
