import Storyboard.Number.Decimal
import Storyboard.Number.Scalar

/-!
# Floating-point scalars

Times are `Float`, geometry is `Float32`. Both read a decimal as the nearest value and write
the shortest digits that read back.
-/

namespace Storyboard

open Number

namespace Number

def Literal.toFloat : Literal → Float
  | .nan => 0.0 / 0.0
  | .infinite negative => if negative then -(1.0 / 0.0) else 1.0 / 0.0
  | .finite negative m e =>
    let value := Float.ofBits (BinaryFormat.double.nearest m e).toUInt64
    if negative then -value else value

def Literal.toFloat32 : Literal → Float32
  | .nan => 0.0 / 0.0
  | .infinite negative => if negative then -(1.0 / 0.0) else 1.0 / 0.0
  | .finite negative m e =>
    let value := Float32.ofBits (BinaryFormat.single.nearest m e).toUInt32
    if negative then -value else value

end Number

instance : Scalar Float where
  ofNat := Float.ofNat
  ofLiteral := Literal.toFloat
  decLt a b := inferInstanceAs (Decidable (a < b))
  decLe a b := inferInstanceAs (Decidable (a ≤ b))
  isNaN := Float.isNaN
  isFinite := Float.isFinite
  floor := Float.floor
  power := Float.pow
  sinPi a := (3.141592653589793 * a).sin
  cosPi a := (3.141592653589793 * a).cos
  sinDegrees a := (a * (3.141592653589793 / 180)).sin
  cosDegrees a := (a * (3.141592653589793 / 180)).cos
  render a := BinaryFormat.double.render a.toBits.toNat
  renderFixed places a := BinaryFormat.double.renderFixed places a.toBits.toNat

instance : Scalar Float32 where
  ofNat := Float32.ofNat
  ofLiteral := Literal.toFloat32
  decLt a b := inferInstanceAs (Decidable (a < b))
  decLe a b := inferInstanceAs (Decidable (a ≤ b))
  isNaN := Float32.isNaN
  isFinite := Float32.isFinite
  floor := Float32.floor
  power := Float32.pow
  sinPi a := (3.1415927 * a).sin
  cosPi a := (3.1415927 * a).cos
  sinDegrees a := (a * (3.1415927 / 180)).sin
  cosDegrees a := (a * (3.1415927 / 180)).cos
  render a := BinaryFormat.single.render a.toBits.toNat
  renderFixed places a := BinaryFormat.single.renderFixed places a.toBits.toNat

instance : Narrow Float Float32 := ⟨Float.toFloat32⟩

end Storyboard
