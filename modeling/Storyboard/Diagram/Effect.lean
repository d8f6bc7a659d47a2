/-!
# Visual effects

Named ways of drawing an entrance, an exit or the flow along an edge. They never change when
something happens. A name that is not known stands for the default of its family.
-/

namespace Storyboard

/-- How a shown entity comes in. -/
inductive Entrance where
  | fadeIn | slideInLeft | slideInRight | slideInTop | slideInBottom
  | scaleIn | bounceIn | flipIn | rotateIn
  deriving DecidableEq, Repr, Inhabited

/-- How a hidden entity goes out. -/
inductive Exit where
  | fadeOut | slideOutLeft | slideOutRight | scaleOut | bounceOut
  deriving DecidableEq, Repr, Inhabited

/-- How an edge is drawn. -/
inductive Flow where
  | particles | dash | glow | wave | arrow | lightning
  deriving DecidableEq, Repr, Inhabited

namespace Entrance

def name : Entrance → String
  | fadeIn => "fadeIn"
  | slideInLeft => "slideInLeft"
  | slideInRight => "slideInRight"
  | slideInTop => "slideInTop"
  | slideInBottom => "slideInBottom"
  | scaleIn => "scaleIn"
  | bounceIn => "bounceIn"
  | flipIn => "flipIn"
  | rotateIn => "rotateIn"

def ofName : String → Entrance
  | "slideInLeft" => slideInLeft
  | "slideInRight" => slideInRight
  | "slideInTop" => slideInTop
  | "slideInBottom" => slideInBottom
  | "scaleIn" => scaleIn
  | "bounceIn" => bounceIn
  | "flipIn" => flipIn
  | "rotateIn" => rotateIn
  | _ => fadeIn

theorem ofName_name (e : Entrance) : ofName e.name = e := by
  cases e <;> rfl

end Entrance

namespace Exit

def name : Exit → String
  | fadeOut => "fadeOut"
  | slideOutLeft => "slideOutLeft"
  | slideOutRight => "slideOutRight"
  | scaleOut => "scaleOut"
  | bounceOut => "bounceOut"

def ofName : String → Exit
  | "slideOutLeft" => slideOutLeft
  | "slideOutRight" => slideOutRight
  | "scaleOut" => scaleOut
  | "bounceOut" => bounceOut
  | _ => fadeOut

theorem ofName_name (e : Exit) : ofName e.name = e := by
  cases e <;> rfl

end Exit

namespace Flow

def name : Flow → String
  | particles => "particles"
  | dash => "dash"
  | glow => "glow"
  | wave => "wave"
  | arrow => "arrow"
  | lightning => "lightning"

def ofName : String → Flow
  | "dash" => dash
  | "glow" => glow
  | "wave" => wave
  | "arrow" => arrow
  | "lightning" => lightning
  | _ => particles

theorem ofName_name (f : Flow) : ofName f.name = f := by
  cases f <;> rfl

end Flow

end Storyboard
