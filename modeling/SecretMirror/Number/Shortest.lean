import SecretMirror.Number.Binary64
import SecretMirror.Text.Digit

/-!
# The shortest decimal of a double

A double is written with the fewest decimal digits that still read back as the same double, and of
those with the digits nearest to it, an exact tie going to the even last digit.  All numbers that
round to a double `m * 2 ^ q` form an interval around it, which includes its ends exactly if `m` is
even.  For each count of digits the double has two neighbours on the grid of decimals with that many
digits, and the first grid with a neighbour inside the interval gives the answer.
-/

namespace SecretMirror

namespace Binary64

/-- A positive decimal number `coefficient * 10 ^ exponent`. -/
structure Decimal where
  /-- The digits, read as a natural number. -/
  coefficient : Nat
  /-- The power of ten that the digits are scaled by. -/
  exponent : Int
  deriving DecidableEq, Repr

/-- A positive double and the interval that rounds to it, in a common unit `scale / unit`.  The ends
belong to it if the double is even. -/
structure Rounding where
  /-- Four times the significand. -/
  centre : Nat
  /-- The lower end of the interval. -/
  low : Nat
  /-- The upper end of the interval. -/
  high : Nat
  /-- Whether the ends themselves round to the double. -/
  closed : Bool
  /-- Numerator of the unit. -/
  scale : Nat
  /-- Denominator of the unit. -/
  unit : Nat

/-- The interval of a positive finite double.  Below a power of two the spacing halves. -/
def rounding (x : Binary64) : Rounding :=
  let (m, q) := x.magnitude
  let narrow := x.fractionBits == 0 && 1 < x.exponentBits
  { centre := 4 * m
    low := if narrow then 4 * m - 1 else 4 * m - 2
    high := 4 * m + 2
    closed := m % 2 == 0
    scale := twoTo (q - 2).toNat
    unit := twoTo (2 - q).toNat }

/-- The least `j ≥ start` for which `num * 10 ^ j` reaches `den`, sought over `fuel` steps. -/
def tensUpTo : Nat → Nat → Nat → Nat → Nat
  | 0, start, _, _ => start
  | fuel + 1, start, num, den =>
    if den ≤ num then start else tensUpTo fuel (start + 1) (10 * num) den

/-- The decimal exponent `p` of a positive number: `10 ^ (p - 1) ≤ num / den < 10 ^ p`. -/
def decimalExponent (num den : Nat) : Int :=
  if den ≤ num then (Text.digits (num / den)).length
  else 1 - (tensUpTo 400 0 num den : Int)

namespace Rounding

def holds (r : Rounding) (grid step d : Nat) : Bool :=
  if r.closed then r.low * grid ≤ d * step && d * step ≤ r.high * grid
  else r.low * grid < d * step && d * step < r.high * grid

/-- The decimal with `places` digits that is nearest to the double among those that round to it, if
there is one.  `p` is the decimal exponent of the double. -/
def onGrid? (r : Rounding) (p : Int) (places : Nat) : Option Decimal :=
  let e := p - places
  let grid := r.scale * tenTo (-e).toNat
  let step := r.unit * tenTo e.toNat
  let target := r.centre * grid
  let d := target / step
  let below := r.holds grid step d && d != 0
  let above := r.holds grid step (d + 1)
  let fromBelow := target - d * step
  let fromAbove := (d + 1) * step - target
  if below && above then
    if fromBelow < fromAbove || (fromBelow == fromAbove && d % 2 == 0) then some ⟨d, e⟩
    else some ⟨d + 1, e⟩
  else if below then some ⟨d, e⟩
  else if above then some ⟨d + 1, e⟩
  else none

/-- The first grid that holds a decimal for the double, from `places` digits on. -/
def firstGrid (r : Rounding) (p : Int) : Nat → Nat → Decimal
  | 0, _ => ⟨0, 0⟩
  | fuel + 1, places => (r.onGrid? p places).getD (firstGrid r p fuel (places + 1))

end Rounding

/-- The shortest decimal that reads back as a positive finite double.  Seventeen digits always
suffice. -/
def shortest (x : Binary64) : Decimal :=
  let r := x.rounding
  r.firstGrid (decimalExponent (r.centre * r.scale) r.unit) 17 1

end Binary64

end SecretMirror
