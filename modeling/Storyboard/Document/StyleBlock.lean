import Storyboard.Diagram.Property
import Storyboard.Diagram.Style
import Storyboard.Document.Animation

/-!
# The style block

A selector line names nodes; the indented `key: value` lines under it set their styles. A name
with a leading point is a class, which selects nothing.
-/

namespace Storyboard.Document

open Number Text

/-- The capital of a letter: of the ASCII letters, and of the two letters outside ASCII whose
capital is in it. -/
def capital (c : Char) : Char :=
  if c = 'ı' then 'I' else if c = 'ſ' then 'S' else c.toUpper

/-- A key without hyphens, the letter after each made a capital; `raised` tells that a hyphen
came just before. -/
def camelCaseFrom : (raised : Bool) → List Char → List Char
  | _, [] => []
  | raised, c :: rest =>
    if c = '-' then camelCaseFrom true rest
    else (if raised then capital c else c) :: camelCaseFrom false rest

def camelCase (key : List Char) : List Char := camelCaseFrom false key

/-- The number with which a value such as `2px` begins. -/
def leadingNumber? {G : Type} [Scalar G] (cs : List Char) : Option G :=
  let cs := trim cs
  let isPart (c : Char) := c.isDigit || c = '.'
  match cs with
  | c :: rest =>
    if isPart c || c = '-' || c = '+' then
      Scalar.readFinite? (c :: rest.takeWhile isPart)
    else none
  | [] => none

variable {T G : Type} [Scalar T] [Scalar G] [Narrow T G]

/-- Styles by node id, each with the place that first named the id. -/
abbrev Styles (G : Type) := OrderedMap String (NodeStyle G × Span)

/-- The styles found so far, and the ids that the last selector named. -/
structure StyleState (G : Type) where
  styles : Styles G := {}
  selected : List String := []
  deriving Repr, Inhabited

variable (T) in
/-- The color of a style value. One that does not read is reported and changes nothing. -/
def styleColor (value : List Char) (span : Span) (old : Option (Color G)) :
    Option (Color G) × List Diagnostic :=
  let text := String.ofList value
  match Color.read T text with
  | .ok color => (some color, [])
  | .error e => (old, [(Fault.invalidFill text e.message).located span])

variable (T) in
/-- Sets one field of a style. A key that is not known is passed over. -/
def setStyle (style : NodeStyle G) (key value : List Char) (span : Span) :
    NodeStyle G × List Diagnostic :=
  let value := stripQuotes value
  match String.ofList (camelCase key) with
  | "fill" =>
    let (fill, said) := styleColor T value span style.fill
    ({ style with fill }, said)
  | "stroke" =>
    let (stroke, said) := styleColor T value span style.stroke
    ({ style with stroke }, said)
  | "color" =>
    let (textColor, said) := styleColor T value span style.textColor
    ({ style with textColor }, said)
  | "strokeWidth" =>
    ({ style with strokeWidth := leadingNumber? value <|> style.strokeWidth }, [])
  | "fontSize" => ({ style with fontSize := leadingNumber? value <|> style.fontSize }, [])
  | "borderRadius" =>
    ({ style with borderRadius := leadingNumber? value <|> style.borderRadius }, [])
  | "fontWeight" => ({ style with fontWeight := some (String.ofList value) }, [])
  | "shadow" => ({ style with shadow := some (String.ofList value) }, [])
  | _ => (style, [])

namespace StyleState

/-- The list of names of a selector line: it is not indented and ends in a colon. -/
def selector? (l : Line) : Option (List Char) :=
  if l.isIndented then none else dropTrailing? [':'] l.trimmed

/-- The ids among the names of a selector. -/
def selectedIds (names : List Char) : List String :=
  ((listItems names).filter (fun name => name.head? != some '.')).map String.ofList

def select (s : StyleState G) (names : List Char) (span : Span) : StyleState G :=
  let ids := selectedIds names
  { styles := ids.foldl (fun styles id => styles.insertNew id ({}, span)) s.styles
    selected := ids }

variable (T) in
/-- Sets one field of the style of an id. -/
def setFor (key value : List Char) (span : Span) (styles : Styles G) (id : String) :
    Styles G × List Diagnostic :=
  match styles.get? id with
  | none => (styles, [])
  | some (style, first) =>
    let (style, said) := setStyle T style key value span
    (styles.insert id (style, first), said)

variable (T) in
/-- Sets one field of the styles of several ids, one after the other. -/
def setForAll (key value : List Char) (span : Span) :
    Styles G → List String → Styles G × List Diagnostic
  | styles, [] => (styles, [])
  | styles, id :: ids =>
    let (styles, said) := setFor T key value span styles id
    let (styles, later) := setForAll key value span styles ids
    (styles, said ++ later)

variable (T) in
def step (s : StyleState G) (l : Line) : StyleState G × List Diagnostic :=
  match selector? l with
  | some names => (s.select names l.span, [])
  | none =>
    match l.isIndented, splitProperty? l.trimmed with
    | true, some (key, value) =>
      let (styles, said) := setForAll T key value l.span s.styles s.selected
      ({ s with styles }, said)
    | _, _ => (s, [(Fault.unrecognizedLine .style).located l.span])

end StyleState

variable (T) in
/-- Reads the style block. -/
def stylesOf (lines : List Line) : Styles G × List Diagnostic :=
  let (s, said) := scanMeaningful (StyleState.step T) {} lines
  (s.styles, said)

end Storyboard.Document
