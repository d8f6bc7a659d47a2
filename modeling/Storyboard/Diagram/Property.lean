import Storyboard.Color.Reader
import Storyboard.Diagram.Effect
import Storyboard.Geometry
import Storyboard.OrderedMap

/-!
# Properties

The `key: value` lines of a step. `PropertyValue.ofText` decides what a written value is, and
the functions on `Properties` read it as the quantity a step needs, with the defaults.
-/

namespace Storyboard

open Text

inductive PropertyValue (T : Type) where
  | bool (b : Bool)
  | number (n : T)
  | text (s : String)
  deriving Repr, Inhabited

section

variable {T : Type} [Scalar T]

/-- Takes off at most one quotation mark at either end. -/
def stripQuotes (cs : List Char) : List Char :=
  let isQuote (c : Char) := c = '"' || c = '\''
  let cs := match cs with
    | c :: rest => if isQuote c then rest else cs
    | [] => []
  match cs.getLast? with
  | some c => if isQuote c then cs.dropLast else cs
  | none => cs

namespace PropertyValue

/-- What a written value is: a truth value, a finite number, or else text. -/
def ofText (cs : List Char) : PropertyValue T :=
  let value := trim cs
  if value = "true".toList then bool true
  else if value = "false".toList then bool false
  else match Scalar.readFinite? value with
    | some n => number n
    | none => text (String.ofList (stripQuotes value))

def asBool? : PropertyValue T → Option Bool
  | bool b => some b
  | _ => none

def asNumber? : PropertyValue T → Option T
  | number n => some n
  | _ => none

def asText? : PropertyValue T → Option String
  | text s => some s
  | _ => none

def render : PropertyValue T → String
  | bool b => if b then "true" else "false"
  | number n => Scalar.render n
  | text s => s

/-- A finite number with white space around it. -/
def trimmedNumber? (cs : List Char) : Option T :=
  Scalar.readFinite? (trim cs)

/-- Reads text that ends in one of the units, each with the number of it that make one. The
first unit that fits decides. -/
def inUnits? (cs : List Char) : List (String × T) → Option T
  | [] => trimmedNumber? cs
  | (unit, divisor) :: units =>
    match dropTrailing? unit.toList cs with
    | some amount => (trimmedNumber? amount).map (· / divisor)
    | none => inUnits? cs units

/-- Reads a value as a quantity: a bare number, or text with or without a unit. -/
def quantity? (units : List (String × T)) : PropertyValue T → Option T
  | number n => some n
  | text s => inUnits? (trim s.toList) units
  | bool _ => none

end PropertyValue

/-- The properties of a step, in the order in which their keys were first written. -/
abbrev Properties (T : Type) := OrderedMap String (PropertyValue T)

namespace Properties

/-- The duration of an operation, in seconds, if none is given. -/
def defaultDuration : T := 1

/-- The time that drawing an edge takes if none is given. -/
def defaultDrawTime : T := 2

def timeUnits : List (String × T) := [("ms", 1000), ("s", 1)]

def text? (p : Properties T) (key : String) : Option String :=
  (p.get? key).bind PropertyValue.asText?

/-- Whether the property is set to true, not merely set. -/
def flag (p : Properties T) (key : String) : Bool :=
  ((p.get? key).bind PropertyValue.asBool?).getD false

/-- A time in seconds. A negative time counts as zero. -/
def seconds? (p : Properties T) (key : String) : Option T :=
  ((p.get? key).bind (PropertyValue.quantity? timeUnits)).map (Scalar.greatest · 0)

def duration (p : Properties T) : T := (p.seconds? "duration").getD defaultDuration

def delay (p : Properties T) : T := (p.seconds? "delay").getD 0

def stagger (p : Properties T) : T := (p.seconds? "stagger").getD 0

/-- The time that drawing an edge takes. -/
def drawTime (p : Properties T) : T := (p.seconds? "speed").getD defaultDrawTime

def entrance (p : Properties T) : Entrance :=
  ((p.text? "effect").map Entrance.ofName).getD default

def exit (p : Properties T) : Exit :=
  ((p.text? "effect").map Exit.ofName).getD default

def flow (p : Properties T) : Flow :=
  ((p.text? "flow").map Flow.ofName).getD default

variable {G : Type} [Scalar G] [Narrow T G]

/-- The color, if there is one and it reads. -/
def color? (p : Properties T) : Option (Color G) :=
  (p.text? "color").bind (Color.read? T)

def inUnit? (p : Properties T) (key unit : String) : Option T :=
  (p.get? key).bind (PropertyValue.quantity? [(unit, 1)])

def padding? (p : Properties T) : Option G :=
  (p.inUnit? "padding" "px").map narrow

/-- The zoom factor. One that is not positive is no zoom factor. -/
def zoom? (p : Properties T) : Option G :=
  ((p.inUnit? "zoom" "x").filter (fun n => (0 : T) < n)).map narrow

def scale? (p : Properties T) : Option G :=
  (p.inUnit? "scale" "x").map narrow

/-- The rotation in degrees. -/
def rotation? (p : Properties T) : Option G :=
  (p.inUnit? "rotate" "deg").map narrow

/-- A pair of numbers with a comma between them, with or without brackets around it. -/
def pairOf? (T : Type) [Scalar T] [Narrow T G] (s : String) : Option (Point G) := do
  let opened := (trim s.toList).dropWhile (fun c => c = '[' || c = '(')
  let inner := dropEndWhile (fun c => c = ']' || c = ')') opened
  let (x, y) ← splitOnce? ',' inner
  let x : T ← PropertyValue.trimmedNumber? x
  let y : T ← PropertyValue.trimmedNumber? y
  return ⟨narrow x, narrow y⟩

/-- The place that a move goes to. -/
def destination? (p : Properties T) : Option (Point G) :=
  (p.text? "to").bind (pairOf? T)

/-- The offset that a move goes by. -/
def offset? (p : Properties T) : Option (Point G) :=
  (p.text? "by").bind (pairOf? T)

end Properties

end

end Storyboard
