import DiagramLayout.Decimal.Numeral
import DiagramLayout.Single.Rounding

/-!
# The shortest decimal of a single-precision number

The numbers that round to `m · 2 ^ e` form an interval around it, which holds its ends exactly when
`m` is even. `Interval.shortest?` looks for a multiple of a power of ten inside the interval, the
greatest power first, and of two neighbours of the value on one grid takes the nearer one, an even
one at a tie. All arithmetic is exact.

`Numeral.ofSingle?` writes the number found: positionally, always with a fraction, when the leading
digit stands from `10 ^ -6` to `10 ^ 12`, and as a power of ten times one leading digit otherwise.
-/

namespace DiagramLayout

/-- A value and the ends of the interval around it, all in units of `2 ^ unit`. -/
structure Interval where
  value : Nat
  low : Nat
  high : Nat
  unit : Int
  closed : Bool

namespace Interval

/-- The numbers that round to `m · 2 ^ e` in single precision. Below a power of two the gap is half
as wide. -/
def ofParts (m : Nat) (e : Int) : Interval where
  value := 4 * m
  low := if m = 0x800000 ∧ -149 < e then 4 * m - 1 else 4 * m - 2
  high := 4 * m + 2
  unit := e - 2
  closed := m % 2 = 0

/-- What a count of units is multiplied by to compare it with multiples of `10 ^ k`. -/
def unitFactor (i : Interval) (k : Int) : Nat :=
  Nat.pow 2 i.unit.toNat * Nat.pow 10 (-k).toNat

/-- What a multiple of `10 ^ k` is multiplied by to compare it with counts of units. -/
def gridFactor (i : Interval) (k : Int) : Nat :=
  Nat.pow 2 (-i.unit).toNat * Nat.pow 10 k.toNat

/-- Whether `d · 10 ^ k` lies in the interval. -/
def holds (i : Interval) (d : Nat) (k : Int) : Bool :=
  let x := d * i.gridFactor k
  let low := i.low * i.unitFactor k
  let high := i.high * i.unitFactor k
  if i.closed then low ≤ x && x ≤ high else low < x && x < high

/-- The multiple of `10 ^ k` in the interval that is nearest to the value, if there is one. -/
def nearestOn? (i : Interval) (k : Int) : Option Nat :=
  let value := i.value * i.unitFactor k
  let step := i.gridFactor k
  let below := value / step
  let rest := value % step
  let nearer :=
    if 2 * rest < step then below
    else if step < 2 * rest then below + 1
    else if below % 2 = 0 then below
    else below + 1
  if i.holds nearer k then some nearer
  else if i.holds below k then some below
  else if i.holds (below + 1) k then some (below + 1)
  else none

/-- A number at or above the power of ten of the leading digit. -/
def topPower (i : Interval) : Int :=
  (i.value.log2 + 1 + i.unit) * 30103 / 100000 + 1

/-- Looks for a multiple of a power of ten in the interval, from `10 ^ k` down. -/
def shortestFrom? (i : Interval) : Nat → Int → Option (Nat × Int)
  | 0, _ => none
  | fuel + 1, k =>
    match i.nearestOn? k with
    | some d => some (d, k)
    | none => shortestFrom? i fuel (k - 1)

/-- The multiple of the greatest possible power of ten in the interval, and that power. Twelve
powers reach nine digits, which always suffice. -/
def shortest? (i : Interval) : Option (Nat × Int) :=
  i.shortestFrom? 12 i.topPower

end Interval

namespace Numeral

/-- The numeral of `d · 10 ^ k` with at least one digit on either side of the point. -/
def positional (negative : Bool) (digits : List Nat) (k : Int) : Numeral :=
  if 0 ≤ k then ⟨negative, digits ++ List.replicate k.toNat 0, some [0], none⟩
  else
    let places := (-k).toNat
    if digits.length ≤ places then
      ⟨negative, [0], some (List.replicate (places - digits.length) 0 ++ digits), none⟩
    else
      let count := digits.length - places
      ⟨negative, digits.take count, some (digits.drop count), none⟩

/-- The numeral with one digit before the point and the power of ten `e`. -/
def scientific (negative : Bool) (digits : List Nat) (e : Int) : Numeral :=
  ⟨negative, digits.take 1, if digits.length ≤ 1 then none else some (digits.drop 1),
    some ⟨e < 0, digitsOf e.natAbs⟩⟩

/-- The least and the greatest place of the leading digit in positional writing. -/
def positionalPlaces : Int × Int :=
  (-6, 12)

/-- The numeral of `d · 10 ^ k` in the form that its size asks for. -/
def ofDecimal (negative : Bool) (d : Nat) (k : Int) : Numeral :=
  let digits := digitsOf d
  let place := k + digits.length - 1
  if positionalPlaces.1 ≤ place ∧ place ≤ positionalPlaces.2 then positional negative digits k
  else scientific negative digits place

/-- The shortest numeral that reads back as the finite number `x`. -/
def ofSingle? (x : Float32) : Option Numeral :=
  match x.toModel.unpack with
  | .zero s => some ⟨s == .negative, [0], some [0], none⟩
  | .finite s m e _ =>
    ((Interval.ofParts m e).shortest?).map fun (d, k) => ofDecimal (s == .negative) d k
  | _ => none

end Numeral

end DiagramLayout
