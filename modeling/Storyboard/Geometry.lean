import Storyboard.Number.Scalar

/-!
# Geometry

Points, sizes, boxes and insets in diagram space. The origin is the top left corner and `y`
grows downwards.
-/

namespace Storyboard

/-- A position, or an offset between positions. -/
structure Point (G : Type) where
  x : G
  y : G
  deriving DecidableEq, Repr, Inhabited

/-- The dimensions of a box. -/
structure Size (G : Type) where
  width : G
  height : G
  deriving DecidableEq, Repr, Inhabited

/-- Spacing around a box, in the order of style sheets. -/
structure Insets (G : Type) where
  top : G
  right : G
  bottom : G
  left : G
  deriving DecidableEq, Repr, Inhabited

/-- A rectangular box given by its corners. -/
structure Bounds (G : Type) where
  minX : G
  minY : G
  maxX : G
  maxY : G
  deriving DecidableEq, Repr, Inhabited

variable {G : Type} [Scalar G]

namespace Point

def zero : Point G := ⟨0, 0⟩

def add (p q : Point G) : Point G := ⟨p.x + q.x, p.y + q.y⟩

def sub (p q : Point G) : Point G := ⟨p.x - q.x, p.y - q.y⟩

def scale (p : Point G) (k : G) : Point G := ⟨p.x * k, p.y * k⟩

/-- The point a fraction `t` of the way from `p` to `q`. -/
def lerp (p q : Point G) (t : G) : Point G :=
  ⟨p.x + (q.x - p.x) * t, p.y + (q.y - p.y) * t⟩

end Point

def Insets.uniform (v : G) : Insets G := ⟨v, v, v, v⟩

namespace Bounds

def ofCenter (center : Point G) (size : Size G) : Bounds G :=
  let halfWidth := size.width / 2
  let halfHeight := size.height / 2
  ⟨center.x - halfWidth, center.y - halfHeight, center.x + halfWidth, center.y + halfHeight⟩

def ofTopLeft (corner : Point G) (size : Size G) : Bounds G :=
  ⟨corner.x, corner.y, corner.x + size.width, corner.y + size.height⟩

def center (b : Bounds G) : Point G :=
  ⟨(b.minX + b.maxX) / 2, (b.minY + b.maxY) / 2⟩

def width (b : Bounds G) : G := b.maxX - b.minX

def height (b : Bounds G) : G := b.maxY - b.minY

/-- The smallest box around both. -/
def merge (a b : Bounds G) : Bounds G :=
  ⟨Scalar.least a.minX b.minX, Scalar.least a.minY b.minY,
    Scalar.greatest a.maxX b.maxX, Scalar.greatest a.maxY b.maxY⟩

/-- The smallest box around all boxes of a list, if there is one. -/
def mergeAll? : List (Bounds G) → Option (Bounds G)
  | [] => none
  | b :: rest => some (rest.foldl merge b)

def translate (b : Bounds G) (offset : Point G) : Bounds G :=
  ⟨b.minX + offset.x, b.minY + offset.y, b.maxX + offset.x, b.maxY + offset.y⟩

/-- The box grown outwards by the insets. -/
def pad (b : Bounds G) (insets : Insets G) : Bounds G :=
  ⟨b.minX - insets.left, b.minY - insets.top, b.maxX + insets.right, b.maxY + insets.bottom⟩

/-- The viewport that magnifies the box by `factor` around its center. A factor that is not
positive leaves the box alone. -/
def zoom (b : Bounds G) (factor : G) : Bounds G :=
  if factor ≤ 0 then b
  else ofCenter b.center ⟨b.width / factor, b.height / factor⟩

/-- Moves every side a fraction `t` of the way to the side of the other box. -/
def lerp (a b : Bounds G) (t : G) : Bounds G :=
  ⟨a.minX + (b.minX - a.minX) * t, a.minY + (b.minY - a.minY) * t,
    a.maxX + (b.maxX - a.maxX) * t, a.maxY + (b.maxY - a.maxY) * t⟩

end Bounds

end Storyboard
