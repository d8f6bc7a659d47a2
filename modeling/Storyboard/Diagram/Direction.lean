/-!
# Layout directions
-/

namespace Storyboard

/-- The direction in which a flowchart grows. -/
inductive Direction where
  | leftRight
  | rightLeft
  | topDown
  | bottomTop
  deriving DecidableEq, Repr, Inhabited

namespace Direction

def isHorizontal : Direction → Bool
  | leftRight | rightLeft => true
  | topDown | bottomTop => false

/-- Whether ranks run against the axis. -/
def isReversed : Direction → Bool
  | rightLeft | bottomTop => true
  | leftRight | topDown => false

def name : Direction → String
  | leftRight => "LR"
  | rightLeft => "RL"
  | topDown => "TD"
  | bottomTop => "BT"

def ofName? : String → Option Direction
  | "LR" => some leftRight
  | "RL" => some rightLeft
  | "TD" | "TB" => some topDown
  | "BT" => some bottomTop
  | _ => none

/-- What is said of a name that is no direction. -/
def unknownMessage : String := "Unsupported flowchart direction"

theorem ofName?_name (d : Direction) : ofName? d.name = some d := by
  cases d <;> rfl

end Direction

end Storyboard
