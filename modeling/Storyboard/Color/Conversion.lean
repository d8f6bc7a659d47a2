import Storyboard.Color.Basic

/-!
# Conversion between color spaces

The components of a color in sRGB. The spaces of mixed light go through linear sRGB: a curve
takes their channels to linear light, a matrix takes these to the channels of sRGB, and the
curve of sRGB ends the way. The perceptual spaces go the same way, by cubes in place of a curve.
`Color.mix` blends two colors in sRGB and gives back its arguments unchanged at the ends.
-/

namespace Storyboard

namespace Components

variable {α : Type}

/-- Changes the three components other than the alpha. -/
def mapChannels (f : α → α) (c : Components α) : Components α :=
  ⟨f c.first, f c.second, f c.third, c.alpha⟩

end Components

namespace Color

variable {G : Type} [Scalar G]

/-! ### Hues -/

/-- One channel of a hue, saturation and lightness; `n` picks the channel. -/
def hslChannel (h sat light : G) (n : Nat) : G :=
  let a := sat * Scalar.least light (1 - light)
  let x := Scalar.ofNat n + h * (1 / 30 : G)
  let k := x - 12 * Scalar.floor (x * (1 / 12 : G))
  light - a * Scalar.clamp (-(1 : G)) 1 (Scalar.least (k - 3) (9 - k))

/-- Red, green and blue of a hue in degrees, a saturation and a lightness in percent. -/
def hslToSrgb (v : Components G) : Components G :=
  let channel := hslChannel v.first (v.second * 0.01) (v.third * 0.01)
  ⟨channel 0, channel 8, channel 4, v.alpha⟩

/-- Red, green and blue of a hue in degrees, a whiteness and a blackness in percent. -/
def hwbToSrgb (v : Components G) : Components G :=
  let white := v.second * 0.01
  let black := v.third * 0.01
  if (1 : G) ≤ white + black then
    let gray := white / (white + black)
    ⟨gray, gray, gray, v.alpha⟩
  else
    let spread (x : G) := white + x * (1 - white - black)
    let pure := hslToSrgb ⟨v.first, 100, 50, v.alpha⟩
    ⟨spread pure.first, spread pure.second, spread pure.third, v.alpha⟩

/-! ### Curves -/

/-- Continues a curve for positive numbers to the negative ones, as an odd function. -/
def oddly (curve : G → G) (x : G) : G :=
  if x < 0 then -curve (-x) else curve x

def srgbToLinear : G → G :=
  oddly fun x =>
    if x ≤ 0.04045 then x * (1 / 12.92 : G)
    else Scalar.power ((x + 0.055) * (1 / 1.055 : G)) 2.4

def srgbOfLinear : G → G :=
  oddly fun x =>
    if x ≤ 0.0031308 then x * 12.92
    else 1.055 * Scalar.power x (1 / 2.4 : G) - 0.055

def a98ToLinear : G → G :=
  oddly fun x => if 0 < x then Scalar.power x (563 / 256 : G) else x

def prophotoToLinear : G → G :=
  oddly fun x => if x ≤ (16 / 512 : G) then x * (1 / 16 : G) else Scalar.power x 1.8

def rec2020ToLinear : G → G :=
  let a : G := 1.09929682680944
  let b : G := 0.018053968510807
  oddly fun x =>
    if x < b * 4.5 then x * (1 / 4.5 : G)
    else Scalar.power ((x + (a - 1)) / a) (1 / 0.45 : G)

/-! ### Linear light -/

/-- A linear map of the three channels, row by row. -/
structure ChannelMatrix (G : Type) where
  first : G × G × G
  second : G × G × G
  third : G × G × G

def ChannelMatrix.apply (m : ChannelMatrix G) (v : Components G) : Components G :=
  let row (r : G × G × G) : G := r.1 * v.first + r.2.1 * v.second + r.2.2 * v.third
  ⟨row m.first, row m.second, row m.third, v.alpha⟩

def ofDisplayP3 : ChannelMatrix G where
  first := (1.2249402, -0.22494018, 0)
  second := (-0.042056955, 1.0420569, 0)
  third := (-0.019637555, -0.07863604, 1.0982736)

def ofA98 : ChannelMatrix G where
  first := (1.3983557, -0.39835575, 0)
  second := (0, 1, 0)
  third := (0, -0.04292899, 1.0429289)

def ofProphoto : ChannelMatrix G where
  first := (2.0343676, -0.7276345, -0.30673307)
  second := (-0.22882679, 1.2317533, -0.002926598)
  third := (-0.008558424, -0.1532682, 1.1618266)

def ofRec2020 : ChannelMatrix G where
  first := (1.660491, -0.5876411, -0.07284986)
  second := (-0.12455048, 1.1328999, -0.008349422)
  third := (-0.018150764, -0.1005789, 1.1187297)

def ofXyzD65 : ChannelMatrix G where
  first := (3.24097, -1.5373832, -0.49861076)
  second := (-0.96924365, 1.8759675, 0.04155506)
  third := (0.05563008, -0.20397696, 1.0569715)

def ofXyzD50 : ChannelMatrix G where
  first := (3.134136, -1.617386, -0.49066222)
  second := (-0.97879547, 1.9162544, 0.033442874)
  third := (0.07195539, -0.22897676, 1.4053861)

/-! ### Perceptual spaces -/

/-- The two axes of a chroma and a hue in degrees, after a lightness. -/
def polarToAxes (v : Components G) : Components G :=
  ⟨v.first, v.second * Scalar.cosDegrees v.third, v.second * Scalar.sinDegrees v.third, v.alpha⟩

def ofRelativeXyzD50 : ChannelMatrix G where
  first := (3.0222337, -1.617386, -0.40484765)
  second := (-0.94384825, 1.9162544, 0.027593868)
  third := (0.06938627, -0.22897676, 1.1595905)

def labToLinear (v : Components G) : Components G :=
  let kappa : G := 24389 / 27
  let cube (x : G) := if 0.20689656 < x then x * x * x else 116 / kappa * x - 16 / kappa
  let middle := v.first * (1 / 116 : G) + 16 / 116
  ofRelativeXyzD50.apply
    (Components.mk (v.second * (1 / 500 : G) + middle) middle (middle - v.third * (1 / 200 : G))
      v.alpha |>.mapChannels cube)

/-- The cube roots of the responses of the three kinds of cones. -/
def conesOfOklab : ChannelMatrix G where
  first := (1, 0.39633778, 0.21580376)
  second := (1, -0.105561346, -0.06385417)
  third := (1, -0.08948418, -1.2914855)

def ofCones : ChannelMatrix G where
  first := (4.0767417, -3.3077116, 0.23096994)
  second := (-1.268438, 2.6097574, -0.34131938)
  third := (-0.0041960863, -0.7034186, 1.7076147)

def oklabToLinear (v : Components G) : Components G :=
  ofCones.apply ((conesOfOklab.apply v).mapChannels fun x => x * x * x)

/-! ### Colors -/

/-- The components in linear sRGB, for the spaces that are converted by way of it. -/
def linearSrgb? (space : ColorSpace) (v : Components G) : Option (Components G) :=
  match space with
  | .srgbLinear => some v
  | .displayP3 => some (ofDisplayP3.apply (v.mapChannels srgbToLinear))
  | .a98Rgb => some (ofA98.apply (v.mapChannels a98ToLinear))
  | .prophotoRgb => some (ofProphoto.apply (v.mapChannels prophotoToLinear))
  | .rec2020 => some (ofRec2020.apply (v.mapChannels rec2020ToLinear))
  | .xyzD50 => some (ofXyzD50.apply v)
  | .xyzD65 => some (ofXyzD65.apply v)
  | .lab => some (labToLinear v)
  | .lch => some (labToLinear (polarToAxes v))
  | .oklab => some (oklabToLinear v)
  | .oklch => some (oklabToLinear (polarToAxes v))
  | .srgb | .hsl | .hwb => none

/-- The components in sRGB. A missing component of mixed light stays zero, unlike one of a space
with a function of its own, which says nothing of a single channel. -/
def toSrgb (c : Color G) : Components G :=
  match c.space with
  | .hsl => hslToSrgb c.values
  | .hwb => hwbToSrgb c.values
  | space =>
    match linearSrgb? space c.values with
    | none => c.values
    | some light =>
      let values := light.mapChannels srgbOfLinear
      if space.hasOwnFunction then values
      else values.zipWith (fun value gone => if gone then 0 else value) c.missing

/-- The color a fraction `t` of the way to `other`, with `t` cut to the unit interval. -/
def mix (c other : Color G) (t : G) : Color G :=
  if t ≤ 0 then c
  else if (1 : G) ≤ t then other
  else { values := c.toSrgb.zipWith (fun a b => a + (b - a) * t) other.toSrgb }

end Color

end Storyboard
