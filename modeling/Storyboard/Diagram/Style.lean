import Storyboard.Color.Basic

/-!
# Node styles

What a style block sets for a node. A field that is not set leaves the matter to the theme.
-/

namespace Storyboard

structure NodeStyle (G : Type) where
  fill : Option (Color G) := none
  stroke : Option (Color G) := none
  strokeWidth : Option G := none
  textColor : Option (Color G) := none
  fontSize : Option G := none
  fontWeight : Option String := none
  borderRadius : Option G := none
  shadow : Option String := none
  deriving Repr, Inhabited

namespace NodeStyle

variable {G : Type}

/-- Lays the fields that `top` sets over those of `base`. -/
def merge (base top : NodeStyle G) : NodeStyle G :=
  { fill := top.fill <|> base.fill
    stroke := top.stroke <|> base.stroke
    strokeWidth := top.strokeWidth <|> base.strokeWidth
    textColor := top.textColor <|> base.textColor
    fontSize := top.fontSize <|> base.fontSize
    fontWeight := top.fontWeight <|> base.fontWeight
    borderRadius := top.borderRadius <|> base.borderRadius
    shadow := top.shadow <|> base.shadow }

def isEmpty (s : NodeStyle G) : Bool :=
  s.fill.isNone && s.stroke.isNone && s.strokeWidth.isNone && s.textColor.isNone &&
    s.fontSize.isNone && s.fontWeight.isNone && s.borderRadius.isNone && s.shadow.isNone

end NodeStyle

end Storyboard
