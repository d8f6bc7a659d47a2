import Storyboard.Diagnostic.Basic
import Storyboard.Diagram.Step

/-!
# Faults of a document

Everything that can be wrong with a document, as a cause. `Fault.located` words it as a diagnostic
for a place in the source.
-/

namespace Storyboard.Document

/-- The blocks that a document may have besides its body. -/
inductive BlockKind where
  | animation | style | narration | config
  deriving DecidableEq, Repr, Inhabited

namespace BlockKind

def all : List BlockKind := [animation, style, narration, config]

def name : BlockKind → String
  | animation => "animation"
  | style => "style"
  | narration => "narration"
  | config => "config"

def ofName? (name : String) : Option BlockKind :=
  all.find? (fun k => k.name == name)

end BlockKind

inductive Fault where
  | unterminatedBlock (kind : BlockKind)
  | duplicateBlock (kind : BlockKind) (first : Span)
  | strayEnd
  | unknownMarker (name : String)
  | unrecognizedBodyLine
  | unrecognizedLine (kind : BlockKind)
  | emptyDocument
  | malformedStep
  | malformedCaption
  | unknownAction (name : String)
  | orphanProperty
  | orphanCaptionLine
  | unknownDirection (found : Option String)
  | missingHeader
  | noNodes
  | duplicateNode (id : String) (first : Span)
  | invalidFill (value reason : String)
  | invalidHighlight (value : String)
  | unknownStyledNode (id : String)
  | invalidOption (key reason : String)
  | unknownTarget (step : Nat) (target : Target)
  | invalidTime (key : String)
  deriving DecidableEq, Repr

namespace Fault

/-- Only a document without content or without nodes is beyond use. -/
def severity : Fault → Severity
  | emptyDocument | noNodes => .error
  | _ => .warning

def code : Fault → Code
  | unterminatedBlock _ => .unterminatedBlock
  | duplicateBlock .. => .duplicateBlock
  | strayEnd | unknownMarker _ => .unknownMarker
  | unrecognizedBodyLine | unrecognizedLine _ => .unrecognizedLine
  | emptyDocument => .emptyDocument
  | malformedStep | malformedCaption => .malformedHeader
  | unknownAction _ => .unknownAction
  | orphanProperty | orphanCaptionLine => .orphanProperty
  | unknownDirection _ | missingHeader => .invalidDirection
  | noNodes => .noNodes
  | duplicateNode .. => .duplicateNode
  | invalidFill .. | invalidHighlight _ => .invalidColor
  | unknownStyledNode _ => .unknownStyledNode
  | invalidOption .. => .invalidOption
  | unknownTarget .. => .unknownTarget
  | invalidTime _ => .invalidProperty

def message : Fault → String
  | unterminatedBlock kind => "@" ++ kind.name ++ " block is never closed"
  | duplicateBlock kind _ => "duplicate @" ++ kind.name ++ " block"
  | strayEnd => "`@end` without an open block"
  | unknownMarker name => "unknown block marker `@" ++ name ++ "`"
  | unrecognizedBodyLine => "unrecognized diagram line"
  | unrecognizedLine kind => "unrecognized " ++ kind.name ++ " line"
  | emptyDocument => "the document is empty"
  | malformedStep => "malformed step header"
  | malformedCaption => "malformed narration header"
  | unknownAction name => "unknown animation action `" ++ name ++ "`"
  | orphanProperty => "property line before any step"
  | orphanCaptionLine => "narration property before any entry"
  | unknownDirection found => "invalid flowchart direction: found " ++ found.getD "nothing"
  | missingHeader => "missing flowchart header"
  | noNodes => "the diagram declares no nodes"
  | duplicateNode id _ => "node `" ++ id ++ "` is declared more than once"
  | invalidFill value _ | invalidHighlight value => "invalid color `" ++ value ++ "`"
  | unknownStyledNode id => "style for unknown node `" ++ id ++ "`"
  | invalidOption key _ => "invalid value for `" ++ key ++ "`"
  | unknownTarget step (.entity id) =>
    "step " ++ toString step ++ " targets unknown `" ++ id ++ "`"
  | unknownTarget step (.pair a b) =>
    "step " ++ toString step ++ " targets unknown edge `" ++ a ++ "->" ++ b ++ "`"
  | invalidTime key => "`" ++ key ++ "` is not a time value"

/-- The remark on the place of the fault. -/
def remark : Fault → String
  | unterminatedBlock _ => "opened here"
  | duplicateBlock .. => "ignored block"
  | strayEnd | unknownMarker _ => "line ignored"
  | malformedStep | unknownAction _ => "step skipped"
  | malformedCaption => "entry skipped"
  | unknownDirection _ => "falling back to LR"
  | duplicateNode .. => "ignored declaration"
  | invalidFill _ reason => reason
  | invalidHighlight _ => "default highlight color used"
  | unknownStyledNode _ => "style ignored"
  | invalidOption _ reason => reason
  | unknownTarget .. => "target skipped"
  | invalidTime _ => "default used for this step"
  | _ => "line skipped"

/-- The place that has to do with the fault without being at fault. -/
def related : Fault → List Label
  | duplicateBlock _ first => [⟨first, "first block used", false⟩]
  | duplicateNode _ first => [⟨first, "first declared here", false⟩]
  | _ => []

def help : Fault → Option String
  | unterminatedBlock _ =>
    some "add `@end` after the last line of the block; it is ignored until then"
  | duplicateBlock .. => some "merge the two blocks into one"
  | strayEnd => none
  | unknownMarker _ =>
    some ("known blocks are @animation, @style, @narration and @config, " ++
      "each closed by @end")
  | unrecognizedBodyLine =>
    some "expected a node such as `A[Label]` or an edge such as `A --> B`"
  | unrecognizedLine .animation =>
    some "expected `step N: action targets` or an indented `key: value`"
  | unrecognizedLine .style => some "expected `node_id:` or an indented `key: value`"
  | unrecognizedLine .narration =>
    some "expected `step N:` or an indented `title:` / `text:`"
  | unrecognizedLine .config => some "expected `key: value`"
  | emptyDocument => some "start with a header such as `flowchart LR`"
  | malformedStep => some "write steps as `step 1: show A, B`"
  | malformedCaption => some "write entries as `step 1:`"
  | unknownAction _ =>
    some ("use show, hide, highlight, unhighlight, connect, move, transform, camera " ++
      "or annotate")
  | orphanProperty => some "properties belong under a `step N: action targets` header"
  | orphanCaptionLine => some "start an entry with `step N:`"
  | unknownDirection _ => some "use one of LR, RL, TD or BT"
  | missingHeader => some "start the document with `flowchart LR`; LR is assumed"
  | noNodes => some "declare a node such as `A[Start]`"
  | duplicateNode .. => some "the first declaration wins; remove or rename this one"
  | invalidFill .. => some "use a CSS color such as `#e3f2fd` or `steelblue`"
  | invalidHighlight _ => some "use a CSS color such as `#FFD700` or `gold`"
  | unknownStyledNode _ => some "style headers name node ids from the diagram body"
  | invalidOption .. => some "the option keeps its default"
  | unknownTarget .. => some "declare it in the diagram or fix the spelling"
  | invalidTime _ => some "write times as `1.5`, `1.5s` or `1500ms`"

/-- The fault as a diagnostic, with its labels. -/
def worded (f : Fault) (labels : List Label) : Diagnostic :=
  { severity := f.severity, code := f.code, message := f.message, labels, help := f.help }

/-- The fault as a diagnostic about one place. -/
def located (f : Fault) (span : Span) : Diagnostic :=
  f.worded (⟨span, f.remark, true⟩ :: f.related)

/-- The fault as a diagnostic about the document as a whole. -/
def anywhere (f : Fault) : Diagnostic :=
  f.worded []

end Fault

end Storyboard.Document
