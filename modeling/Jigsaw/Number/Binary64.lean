import Jigsaw.Number.Decimal

/-!
# Number/Binary64 — binary floating point numbers, exactly

A finite magnitude is `significand · 2 ^ exponent` with at most 53 bits.  Reading rounds a decimal
to the nearest magnitude, ties to the even significand; writing picks, among the decimals that read
back, one with the fewest digits and of those the nearest.  Both work on exact naturals.
-/

namespace Jigsaw

/-- A finite, non-negative binary64 magnitude. -/
structure Binary64 where
  /-- At most 53 bits, and exactly 53 unless the exponent is the least. -/
  significand : Nat
  /-- The power of two that scales the significand. -/
  exponent : Int
deriving DecidableEq

namespace Binary64

/-- The bits of a full significand. -/
def precision : Nat := 53

/-- The exponent of the smallest magnitudes. -/
def leastExponent : Int := -1074

/-- The exponent of the largest magnitudes. -/
def greatestExponent : Int := 971

/-- Zero. -/
def zero : Binary64 := ⟨0, leastExponent⟩

/-- A positive ratio of naturals. -/
structure Ratio where
  /-- The dividend. -/
  num : Nat
  /-- The divisor. -/
  den : Nat

/-- `r · base ^ e`. -/
def Ratio.scale (r : Ratio) (base : Nat) (e : Int) : Ratio :=
  if 0 ≤ e then ⟨r.num * base.pow e.toNat, r.den⟩ else ⟨r.num, r.den * base.pow (-e).toNat⟩

/-- The quotient, rounded to the nearest natural and on a tie to the even one. -/
def Ratio.round (r : Ratio) : Nat :=
  let q := r.num / r.den
  let twice := 2 * (r.num % r.den)
  if twice < r.den || (twice = r.den && q % 2 = 0) then q else q + 1

/-- The greatest `e` with `2 ^ e` at most the ratio. -/
def Ratio.log2 (r : Ratio) : Int :=
  let guess : Int := r.num.log2 - r.den.log2
  let scaled := r.scale 2 (-guess)
  if scaled.den ≤ scaled.num then guess else guess - 1

/-- The magnitude nearest to a positive ratio; none if it is past the greatest. -/
def nearest? (r : Ratio) : Option Binary64 :=
  let e := max (r.log2 - (precision - 1 : Nat)) leastExponent
  let m := (r.scale 2 (-e)).round
  let x : Binary64 := if m = Nat.pow 2 precision then ⟨Nat.pow 2 (precision - 1), e + 1⟩ else ⟨m, e⟩
  if x.exponent ≤ greatestExponent then some x else none

/-- The magnitude nearest to `coefficient · 10 ^ exponent`; none if it is past the greatest.  Powers
of ten far outside the range are settled by the number of digits alone. -/
def ofDecimal? (coefficient : Nat) (exponent : Int) : Option Binary64 :=
  if coefficient = 0 then some zero
  else
    let top := coefficient.repr.length + exponent
    if 310 < top then none
    else if top < -330 then some zero
    else nearest? (Ratio.scale ⟨coefficient, 1⟩ 10 exponent)

/-! ## The fewest digits that read back -/

/-- The reals that round to a magnitude, on a scale where all bounds are naturals: the magnitude is
`mid / unit`, and the interval runs from `low / unit` to `high / unit`. -/
structure Interval where
  /-- The lower end. -/
  low : Nat
  /-- The magnitude itself. -/
  mid : Nat
  /-- The upper end. -/
  high : Nat
  /-- The common divisor. -/
  unit : Nat
  /-- Whether the ends belong to the interval. -/
  closed : Bool

/-- The reals that round to a positive magnitude: half a step to each side, where the step below a
power of two is half as long. -/
def interval (x : Binary64) : Interval :=
  let m := x.significand
  let low :=
    if m = Nat.pow 2 (precision - 1) && leastExponent < x.exponent then 4 * m - 1 else 4 * m - 2
  let scale := fun n : Nat => if 0 ≤ x.exponent then n * Nat.pow 2 x.exponent.toNat else n
  { low := scale low
    mid := scale (4 * m)
    high := scale (4 * m + 2)
    unit := if 0 ≤ x.exponent then 4 else 4 * Nat.pow 2 (-x.exponent).toNat
    closed := m % 2 = 0 }

/-- Whether `n / unit` lies in the interval. -/
def Interval.contains (i : Interval) (n : Nat) : Bool :=
  if i.closed then i.low ≤ n && n ≤ i.high else i.low < n && n < i.high

/-- The coefficient of a multiple of `10 ^ e` in the interval that is nearest to the magnitude, on a
tie the even one; none if no multiple lies in the interval. -/
def Interval.onGrid? (i : Interval) (e : Int) : Option Nat :=
  let step := if 0 ≤ e then i.unit * Nat.pow 10 e.toNat else i.unit
  let widen := fun n : Nat => if 0 ≤ e then n else n * Nat.pow 10 (-e).toNat
  let wide : Interval := { i with low := widen i.low, mid := widen i.mid, high := widen i.high }
  let below := wide.mid / step
  let fits := fun k : Nat => wide.contains (k * step)
  let down := wide.mid - below * step
  let up := (below + 1) * step - wide.mid
  if fits below && (down < up || (down = up && below % 2 = 0) || !fits (below + 1)) then
    some below
  else if fits (below + 1) then some (below + 1)
  else none

/-- The greatest `e` with `10 ^ e` at most the magnitude, for positive ones. -/
def Interval.log10 (i : Interval) : Int :=
  if i.unit ≤ i.mid then ((i.mid / i.unit).repr.length : Int) - 1
  else
    let guess : Int := -((i.unit / i.mid).repr.length : Int)
    if i.unit ≤ i.mid * Nat.pow 10 (-guess - 1).toNat then guess + 1 else guess

/-- The first grid, from coarse to fine, that has a point in the interval, as coefficient and power
of ten; `digits` counts the grids still to try. -/
def Interval.firstGrid (i : Interval) (e : Int) : Nat → Nat × Int
  | 0 => ((i.onGrid? e).getD 0, e)
  | digits + 1 =>
    match i.onGrid? e with
    | some k => (k, e)
    | none => i.firstGrid (e - 1) digits

/-- A coefficient without zeros at its end; `bound` counts the zeros that may go. -/
def dropZeros (k : Nat) (e : Int) : Nat → Nat × Int
  | 0 => (k, e)
  | bound + 1 => if k ≠ 0 && k % 10 = 0 then dropZeros (k / 10) (e + 1) bound else (k, e)

/-- Coefficient and power of ten of the shortest decimal that reads back as the magnitude. -/
def shortest (x : Binary64) : Nat × Int :=
  if x.significand = 0 then (0, 0)
  else
    let i := x.interval
    let (k, e) := i.firstGrid i.log10 17
    dropZeros k e 18

end Binary64

end Jigsaw
