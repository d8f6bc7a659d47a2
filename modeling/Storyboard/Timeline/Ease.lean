import Storyboard.Number.Scalar

/-!
# Easing curves

A curve maps the share of time that has passed to the share of the change that is done. All
curves start at zero and end at one.
-/

namespace Storyboard

inductive Ease where
  | linear | inQuad | outQuad | inOutQuad | inCubic | outCubic | inOutCubic
  | outBack | outBounce | inOutSine
  deriving DecidableEq, Repr

instance : Inhabited Ease := ⟨.outQuad⟩

namespace Ease

def name : Ease → String
  | linear => "Linear"
  | inQuad => "InQuad"
  | outQuad => "OutQuad"
  | inOutQuad => "InOutQuad"
  | inCubic => "InCubic"
  | outCubic => "OutCubic"
  | inOutCubic => "InOutCubic"
  | outBack => "OutBack"
  | outBounce => "OutBounce"
  | inOutSine => "InOutSine"

/-- Splits a name at its first point into a family and a direction. -/
def splitName (name : String) : String × String :=
  let cs := name.toList
  let family := String.ofList (cs.takeWhile (· != '.'))
  match cs.dropWhile (· != '.') with
  | _ :: direction => (family, String.ofList direction)
  | [] => (family, "out")

/-- The curve of a name such as `power2.inOut`. A family without a known direction eases out,
and an unknown family is the default curve. -/
def ofName (name : String) : Ease :=
  match splitName name with
  | ("linear", _) | ("none", _) => linear
  | ("power1", "in") | ("quad", "in") => inQuad
  | ("power1", "inOut") | ("quad", "inOut") => inOutQuad
  | ("power1", _) | ("quad", _) => outQuad
  | ("power2", "in") | ("power3", "in") | ("cubic", "in") => inCubic
  | ("power2", "inOut") | ("power3", "inOut") | ("cubic", "inOut") => inOutCubic
  | ("power2", _) | ("power3", _) | ("cubic", _) => outCubic
  | ("back", _) => outBack
  | ("bounce", _) => outBounce
  | ("sine", _) => inOutSine
  | _ => default

variable {T : Type} [Scalar T]

def square (x : T) : T := x * x

def cube (x : T) : T := x * x * x

/-- Four parabolas, each a bounce. -/
def bounce (t : T) : T :=
  let n : T := 7.5625
  let d : T := 2.75
  if t < 1 / d then n * t * t
  else if t < 2 / d then
    let t := t - 1.5 / d
    n * t * t + 0.75
  else if t < 2.5 / d then
    let t := t - 2.25 / d
    n * t * t + 0.9375
  else
    let t := t - 2.625 / d
    n * t * t + 0.984375

/-- The curve on the unit interval. -/
def onUnit (e : Ease) (t : T) : T :=
  match e with
  | linear => t
  | inQuad => t * t
  | outQuad => 1 - (1 - t) * (1 - t)
  | inOutQuad => if t < 0.5 then 2 * t * t else 1 - square (-(2 : T) * t + 2) / 2
  | inCubic => t * t * t
  | outCubic => 1 - cube (1 - t)
  | inOutCubic => if t < 0.5 then 4 * t * t * t else 1 - cube (-(2 : T) * t + 2) / 2
  | outBack =>
    let c : T := 1.70158
    1 + (c + 1) * cube (t - 1) + c * square (t - 1)
  | outBounce => bounce t
  | inOutSine => -(Scalar.cosPi t - 1) / 2

/-- The curve at any time; times outside the unit interval count as its ends. -/
def apply (e : Ease) (t : T) : T :=
  e.onUnit (Scalar.clamp 0 1 t)

end Ease

end Storyboard
