/-!
# Orders on single-precision numbers

`greater` and `lesser` choose one of two numbers and prefer a number over what is not one; of two
equal numbers they keep the first. `rank` turns the total order of single-precision numbers into
the order of integers: what is not a number comes first, then the numbers by value, negative zero
before zero.
-/

namespace DiagramLayout.Single

/-- The greater of two numbers; the other one when one of them is not a number. -/
def greater (a b : Float32) : Float32 :=
  if a.isNaN then b else if a < b then b else a

/-- The lesser of two numbers; the other one when one of them is not a number. -/
def lesser (a b : Float32) : Float32 :=
  if a.isNaN then b else if b < a then b else a

/-- The place of `x` in the total order of single-precision numbers. -/
def rank (x : Float32) : Int :=
  if x.isNaN then -0x80000001
  else
    let bits := x.toBits.toNat
    if bits < 0x80000000 then bits else 0x7fffffff - bits

/-- The greatest finite single-precision number. -/
def largest : Float32 :=
  Float32.ofBits 0x7f7fffff

/-- The number above all others. -/
def infinite : Float32 :=
  Float32.ofBits 0x7f800000

/-- The value that is not a number. -/
def undefined : Float32 :=
  Float32.ofBits 0x7fc00000

end DiagramLayout.Single
