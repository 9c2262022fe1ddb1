import SecretMirror.Text.Digit

/-!
# Binary floating point, exactly

A double is kept as its 64 bits: a sign, an eleven-bit exponent and a fraction.  All that is said
about it here is exact arithmetic on natural numbers.

* `Binary64.magnitude` reads a finite double as `m * 2 ^ q`.
* `Binary64.ofRatio` is the double nearest to a fraction, ties to the even one.
* `Binary64.ofDecimal` is the double nearest to a decimal `m * 10 ^ e`, and `Binary64.ofDigits` the
  one nearest to a decimal that is given by its digits.
-/

namespace SecretMirror

/-- A double by its bit pattern, so that two of them can be told apart. -/
structure Binary64 where
  /-- Sign, exponent and fraction, from the most significant bit down. -/
  bits : UInt64
  deriving DecidableEq, Repr

namespace Binary64

def twoTo (n : Nat) : Nat := Nat.pow 2 n

def tenTo (n : Nat) : Nat := Nat.pow 10 n

def isNegative (x : Binary64) : Bool := twoTo 63 ≤ x.bits.toNat

def exponentBits (x : Binary64) : Nat := x.bits.toNat / twoTo 52 % twoTo 11

def fractionBits (x : Binary64) : Nat := x.bits.toNat % twoTo 52

def isNaN (x : Binary64) : Bool := x.exponentBits == 2047 && x.fractionBits != 0

def isInfinite (x : Binary64) : Bool := x.exponentBits == 2047 && x.fractionBits == 0

def isZero (x : Binary64) : Bool := x.exponentBits == 0 && x.fractionBits == 0

/-- The pair `(m, q)` for which a finite double is `m * 2 ^ q`, its sign apart. -/
def magnitude (x : Binary64) : Nat × Int :=
  if x.exponentBits = 0 then (x.fractionBits, -1074)
  else (x.fractionBits + twoTo 52, (x.exponentBits : Int) - 1075)

def ofParts (negative : Bool) (magnitudeBits : Nat) : Binary64 :=
  ⟨UInt64.ofNat ((if negative then twoTo 63 else 0) + magnitudeBits)⟩

def infinity (negative : Bool) : Binary64 := ofParts negative (2047 * twoTo 52)

/-- The quiet number that is none. -/
def nan (negative : Bool) : Binary64 := ofParts negative (4095 * twoTo 51)

/-- The quotient `num / den`, rounded to the nearest natural number, a half to the even one. -/
def roundQuotient (num den : Nat) : Nat :=
  let floor := num / den
  let rest := 2 * (num % den)
  if rest < den then floor
  else if den < rest then floor + 1
  else if floor % 2 = 0 then floor else floor + 1

/-- The binary exponent `e` of a positive fraction: `2 ^ e ≤ num / den < 2 ^ (e + 1)`. -/
def binaryExponent (num den : Nat) : Int :=
  let guess : Int := (num.log2 : Int) - (den.log2 : Int)
  let below : Bool :=
    if 0 ≤ guess then num < den * twoTo guess.toNat else num * twoTo (-guess).toNat < den
  if below then guess - 1 else guess

/-- The bits, without sign, of the double nearest to `num / den`.  A fraction that is too large for
a double becomes infinite. -/
def magnitudeBitsOfRatio (num den : Nat) : Nat :=
  if num = 0 then 0
  else
    let q := max (binaryExponent num den - 52) (-1074)
    let m := if 0 ≤ q then roundQuotient num (den * twoTo q.toNat)
      else roundQuotient (num * twoTo (-q).toNat) den
    min ((q + 1074).toNat * twoTo 52 + m) (2047 * twoTo 52)

/-- The double nearest to a fraction, ties going to the even one, as division rounds. -/
def ofRatio (negative : Bool) (num den : Nat) : Binary64 :=
  ofParts negative (magnitudeBitsOfRatio num den)

/-- The double nearest to an integer. -/
def ofInt (n : Int) : Binary64 := ofRatio (n < 0) n.natAbs 1

/-- The double nearest to `m * 10 ^ e`, where `m` has `width` digits.  Powers of ten far outside the
range of doubles are not computed: the result is zero or infinite then. -/
def ofDecimal (negative : Bool) (m width : Nat) (e : Int) : Binary64 :=
  if m = 0 then ofParts negative 0
  else if 400 < e + width then infinity negative
  else if e + width < -400 then ofParts negative 0
  else if 0 ≤ e then ofRatio negative (m * tenTo e.toNat) 1
  else ofRatio negative m (tenTo (-e).toNat)

/-- The double nearest to a decimal with the given digits, the point standing `e` places behind the
last of them.  Leading zeros do not count. -/
def ofDigits (negative : Bool) (ds : List Nat) (e : Int) : Binary64 :=
  let kept := ds.dropWhile (· == 0)
  ofDecimal negative (Text.digitsValue kept) kept.length e

/-- The integer that a double is equal to, if there is one. -/
def toInt? (x : Binary64) : Option Int :=
  if x.exponentBits = 2047 then none
  else
    let (m, q) := x.magnitude
    let size? : Option Nat :=
      if 0 ≤ q then some (m * twoTo q.toNat)
      else if m % twoTo (-q).toNat = 0 then some (m / twoTo (-q).toNat) else none
    size?.map fun n => if x.isNegative then -(n : Int) else n

end Binary64

end SecretMirror
