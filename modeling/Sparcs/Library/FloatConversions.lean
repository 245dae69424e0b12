import Mathlib

/-! Numbers of single precision as numbers of double precision and back, and the remainder that
`fmod` returns.
-/

namespace FloatConversions

open Float.Model
open UnpackedFloat

/-- The nearest number of a format. -/
def convert (spec : Format) : UnpackedFloat → UnpackedFloat
  | .finite sign mantissa exponent _ => UnpackedFloat.round spec sign mantissa exponent
  | other => other

def toDouble (x : Float32) : Float :=
  .ofModel (Float.Model.pack (convert .binary64 x.toModel.unpack))

def toSingle (x : Float) : Float32 :=
  .ofModel (Float32.Model.pack (convert .binary32 x.toModel.unpack))

/-- What is left of the first number, with its sign, after as many of the second as it holds. There
is nothing to round: the remainder has no bits below those of the two numbers.
-/
def remainder : UnpackedFloat → UnpackedFloat → UnpackedFloat
  | .finite sign mantissa exponent _, .finite _ mantissa' exponent' _ =>
      let low := min exponent exponent'
      let rest :=
        (mantissa <<< (exponent - low).toNat) % (mantissa' <<< (exponent' - low).toNat)
      if rest = 0 then .zero sign else UnpackedFloat.round .binary64 sign rest low
  | .zero sign, .finite .. => .zero sign
  | .zero sign, .infinity _ => .zero sign
  | .finite sign mantissa exponent positive, .infinity _ => .finite sign mantissa exponent positive
  | _, _ => .notANumber

def fmod (x y : Float) : Float :=
  .ofModel (Float.Model.pack (remainder x.toModel.unpack y.toModel.unpack))

/-- The angle -725.5 degrees. -/
example
    : toSingle (fmod (toDouble (Float32.ofBits 0xc4356000)) 360) = Float32.ofBits 0xc0b00000 := by
  decide +kernel

end FloatConversions
