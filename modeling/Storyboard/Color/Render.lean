import Storyboard.Color.Conversion

/-!
# The text of a color

A named color is written by its name, one that was read from hexadecimal digits or a function
of sRGB as `rgb`, and every other by the function of its space. A missing component is written
`none`.
-/

namespace Storyboard

namespace Color

variable {G : Type} [Scalar G]

/-- One component as text, scaled. -/
def component (value : G) (missing : Bool) (scale : G) : String :=
  if missing then "none" else Scalar.render (value * scale)

/-- The form with commas: `rgb(r, g, b)`, or `rgba(r, g, b, a)` if not opaque. -/
def renderCommas (name : String) (scale : G) (values : Components G)
    (missing : Components Bool) : String :=
  let parts :=
    component values.first missing.first scale ++ ", " ++
      component values.second missing.second scale ++ ", " ++
      component values.third missing.third scale
  if values.alpha < 1 then
    name ++ "a(" ++ parts ++ ", " ++ component values.alpha missing.alpha 1 ++ ")"
  else name ++ "(" ++ parts ++ ")"

/-- The form with blanks, the alpha after a slash if not opaque. -/
def renderBlanks (opening : String) (c : Color G) : String :=
  let parts :=
    component c.values.first c.missing.first 1 ++ " " ++
      component c.values.second c.missing.second 1 ++ " " ++
      component c.values.third c.missing.third 1
  let alpha :=
    if c.values.alpha < 1 then " / " ++ component c.values.alpha c.missing.alpha 1 else ""
  opening ++ parts ++ alpha ++ ")"

def render (c : Color G) : String :=
  match c.form, c.space with
  | .named name, _ => name
  | .function, .srgb => renderCommas "rgb" 255 c.values c.missing
  | .function, .hsl | .function, .hwb =>
    renderCommas "rgb" 255 c.toSrgb ⟨false, false, false, c.missing.alpha⟩
  | _, .hsl => renderCommas "hsl" 1 c.values c.missing
  | _, space =>
    if space.hasOwnFunction then c.renderBlanks (space.name ++ "(")
    else c.renderBlanks ("color(" ++ space.name ++ " ")

end Color

end Storyboard
