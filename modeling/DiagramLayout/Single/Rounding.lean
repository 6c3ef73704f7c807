/-!
# Rounding single-precision numbers

A finite number is `m · 2 ^ e` for integers `m` and `e`, its parts. Rounding to a whole number is
done exactly on the parts: a number whose exponent is not negative is whole already, any other is
an integer over a power of two. The rounded number keeps the sign of zero, and infinities and the
number that is not a number stay as they are.

`saturate lo hi x` is the whole part of `x` held to an interval, and `ofDouble` rounds a
double-precision number to the nearest single-precision one.
-/

namespace DiagramLayout.Single

open Float.Model (Format UnpackedFloat)

/-- The integers `m` and `e` with `x = m · 2 ^ e`, for a finite `x`. -/
def parts? (x : Float32) : Option (Int × Int) :=
  match x.toModel.unpack with
  | .finite s m e _ => some (s.apply m, e)
  | .zero _ => some (0, 0)
  | .infinity _ => none
  | .notANumber => none

/-- The greatest integer not above `m / 2 ^ k`. -/
def floorDiv (m : Int) (k : Nat) : Int :=
  m.fdiv (Nat.pow 2 k)

/-- The least integer not below `m / 2 ^ k`. -/
def ceilDiv (m : Int) (k : Nat) : Int :=
  -((-m).fdiv (Nat.pow 2 k))

/-- The integer nearest to `m / 2 ^ k`, where a half goes away from zero. -/
def nearestDiv (m : Int) (k : Nat) : Int :=
  m.sign * ((2 * m.natAbs + Nat.pow 2 k) / Nat.pow 2 (k + 1) : Nat)

/-- The single-precision zero with the sign of `m`. -/
def zeroLike (m : Int) : Float32 :=
  if m < 0 then -(0.0 : Float32) else 0.0

/-- Rounds `x` to a whole number by the rule `round`, which takes `m` and `k` to an integer near
`m / 2 ^ k`. -/
def roundBy (round : Int → Nat → Int) (x : Float32) : Float32 :=
  match parts? x with
  | some (m, .negSucc k) =>
    let n := round m (k + 1)
    if n = 0 then zeroLike m else Float32.ofInt n
  | _ => x

/-- The greatest whole number not above `x`. -/
def floor (x : Float32) : Float32 :=
  roundBy floorDiv x

/-- The least whole number not below `x`. -/
def ceil (x : Float32) : Float32 :=
  roundBy ceilDiv x

/-- The whole number nearest to `x`, where a half goes away from zero. -/
def nearest (x : Float32) : Float32 :=
  roundBy nearestDiv x

/-- The whole part of `x`, held to the interval from `lo` to `hi`; zero for a number that is not
one. -/
def saturate (lo hi : Int) (x : Float32) : Int :=
  max lo (min hi (x.toModel.unpack.toInt lo hi))

/-- The whole part of `x` as a 32-bit integer. -/
def toInt32 (x : Float32) : Int :=
  saturate (-0x80000000) 0x7fffffff x

/-- The whole part of `x` as a 64-bit integer. -/
def toInt64 (x : Float32) : Int :=
  saturate (-0x8000000000000000) 0x7fffffffffffffff x

/-- The whole part of `x` as a 64-bit natural number. -/
def toNat64 (x : Float32) : Nat :=
  (saturate 0 0xffffffffffffffff x).toNat

/-- The single-precision number nearest to `d`, a tie going to the even mantissa. -/
def ofDouble (d : Float) : Float32 :=
  match d.toModel.unpack with
  | .finite s m e _ => .ofModel (.pack (UnpackedFloat.round Format.binary32 s m e))
  | u => .ofModel (.pack u)

end DiagramLayout.Single
