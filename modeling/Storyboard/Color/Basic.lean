import Storyboard.Number.Scalar

/-!
# Colors

A color is four components in a color space, together with the way it was written: a name and
a function keep their own text form.
-/

namespace Storyboard

inductive ColorSpace where
  | srgb | srgbLinear | displayP3 | a98Rgb | prophotoRgb | rec2020 | xyzD50 | xyzD65
  | hsl | hwb | lab | lch | oklab | oklch
  deriving DecidableEq, Repr, Inhabited

namespace ColorSpace

/-- The name under which a color of this space is written. -/
def name : ColorSpace → String
  | srgb => "srgb"
  | srgbLinear => "srgb-linear"
  | displayP3 => "display-p3"
  | a98Rgb => "a98-rgb"
  | prophotoRgb => "prophoto-rgb"
  | rec2020 => "rec2020"
  | xyzD50 => "xyz-d50"
  | xyzD65 => "xyz-d65"
  | hsl => "hsl"
  | hwb => "hwb"
  | lab => "lab"
  | lch => "lch"
  | oklab => "oklab"
  | oklch => "oklch"

/-- Whether colors of this space are written as a function of its own name. -/
def hasOwnFunction : ColorSpace → Bool
  | hsl | hwb | lab | lch | oklab | oklch => true
  | _ => false

/-- The spaces that `color()` takes. -/
def ofName? (name : String) : Option ColorSpace :=
  match name with
  | "srgb" => some srgb
  | "srgb-linear" => some srgbLinear
  | "display-p3" => some displayP3
  | "a98-rgb" => some a98Rgb
  | "prophoto-rgb" => some prophotoRgb
  | "rec2020" => some rec2020
  | "xyz-d50" => some xyzD50
  | "xyz" | "xyz-d65" => some xyzD65
  | _ => none

end ColorSpace

/-- How a color was written. -/
inductive ColorForm where
  /-- The result of a computation, or of `color()`. -/
  | plain
  /-- A hexadecimal color, or a function of the space's own name. -/
  | function
  | named (name : String)
  deriving DecidableEq, Repr, Inhabited

/-- One thing for each component of a color. -/
structure Components (α : Type) where
  first : α
  second : α
  third : α
  alpha : α
  deriving DecidableEq, Repr, Inhabited

namespace Components

variable {α β γ : Type}

def map (f : α → β) (c : Components α) : Components β :=
  ⟨f c.first, f c.second, f c.third, f c.alpha⟩

def zipWith (f : α → β → γ) (c : Components α) (d : Components β) : Components γ :=
  ⟨f c.first d.first, f c.second d.second, f c.third d.third, f c.alpha d.alpha⟩

def all (p : α → Bool) (c : Components α) : Bool :=
  p c.first && p c.second && p c.third && p c.alpha

end Components

/-- A color. A missing component has the value zero. -/
structure Color (G : Type) where
  space : ColorSpace := .srgb
  values : Components G
  missing : Components Bool := ⟨false, false, false, false⟩
  form : ColorForm := .plain
  deriving DecidableEq, Repr, Inhabited

namespace Color

variable {G : Type} [Scalar G]

/-- Equality of every field, with components compared as numbers. -/
def same (a b : Color G) : Bool :=
  a.space == b.space && a.form == b.form && a.missing == b.missing &&
    (a.values.zipWith (· == ·) b.values).all id

instance : BEq (Color G) := ⟨same⟩

/-- The opaque or transparent sRGB color of four bytes, red first. -/
def ofBytes (bytes : Components Nat) (form : ColorForm) : Color G :=
  { values := bytes.map (fun b => Scalar.ofNat b * (1 / 255 : G)), form }

def alpha (c : Color G) : G :=
  c.values.alpha

/-- The color with another alpha. One whose alpha is missing stays as it is. -/
def withAlpha (c : Color G) (alpha : G) : Color G :=
  if c.missing.alpha then c
  else { c with values := { c.values with alpha }, form := .plain }

end Color

end Storyboard
