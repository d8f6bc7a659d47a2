import Storyboard.Diagram.Property

/-!
# Animation steps

A step has a number, an action, the entities it acts on and its properties. Numbers are the
author's: steps that share one belong together, and they need not be in order.
-/

namespace Storyboard

inductive Action where
  | reveal | hide | highlight | unhighlight | connect | move | transform | camera
  /-- Reserved: it does nothing. -/
  | annotate
  deriving DecidableEq, Repr, Inhabited

namespace Action

def name : Action → String
  | reveal => "show"
  | hide => "hide"
  | highlight => "highlight"
  | unhighlight => "unhighlight"
  | connect => "connect"
  | move => "move"
  | transform => "transform"
  | camera => "camera"
  | annotate => "annotate"

def ofName? : String → Option Action
  | "show" => some reveal
  | "hide" => some hide
  | "highlight" => some highlight
  | "unhighlight" => some unhighlight
  | "connect" => some connect
  | "move" => some move
  | "transform" => some transform
  | "camera" => some camera
  | "annotate" => some annotate
  | _ => none

/-- What is said of a name that is no action. -/
def unknownMessage : String := "Unsupported animation action"

theorem ofName?_name (a : Action) : ofName? a.name = some a := by
  cases a <;> rfl

end Action

/-- One entry of a step's list of targets. -/
inductive Target where
  /-- The id of a node or an edge, or a word such as `all`. -/
  | entity (id : String)
  | pair (source target : String)
  deriving DecidableEq, Repr, Inhabited

def Target.render : Target → String
  | entity id => id
  | pair source target => source ++ "->" ++ target

structure Step (T : Type) where
  number : Nat
  action : Action
  targets : List Target := []
  properties : Properties T := {}
  deriving Repr, Inhabited

/-- The property under which the mode of a camera step is kept. -/
def Step.cameraModeKey : String := "cameraAction"

end Storyboard
