import SecretMirror.Number.Shortest

/-!
# How numbers are written

Two ways of writing a double from its shortest decimal.  In messages and log lines a double is
positional between a ten-thousandth and ten quadrillions and always shows a fraction; outside it has
an exponent of at least two digits.  In the text that metrics are exposed in, a positive number of
seven or more integer digits moves its point behind the first digit.  Both write an exponent alike.
-/

namespace SecretMirror

namespace Binary64

/-- The digits of a decimal without trailing zeros, and the place of the point: a decimal with
digits `d₁ d₂ …` and point `p` is `0.d₁d₂… * 10 ^ p`. -/
def Decimal.digitsAndPoint (d : Decimal) : List Char × Int :=
  let all := Text.digits d.coefficient
  let kept := (all.reverse.dropWhile (· == '0')).reverse
  (kept, all.length + d.exponent)

/-- Positional writing with at least one digit on each side of the point. -/
def positional (ds : List Char) (point : Int) : List Char :=
  if point ≤ 0 then '0' :: '.' :: List.replicate (-point).toNat '0' ++ ds
  else
    let whole := point.toNat
    if ds.length ≤ whole then ds ++ List.replicate (whole - ds.length) '0' ++ ['.', '0']
    else ds.take whole ++ '.' :: ds.drop whole

/-- An exponent: its sign and at least two digits. -/
def writtenExponent (e : Int) : List Char :=
  let size := Text.digits e.natAbs
  'e' :: (if e < 0 then '-' else '+') :: (if size.length < 2 then '0' :: size else size)

/-- Writing with one digit before the point and a signed exponent of at least two digits. -/
def scientific (ds : List Char) (point : Int) : List Char :=
  let mantissa := match ds with
    | [] => ['0']
    | [d] => [d]
    | d :: rest => d :: '.' :: rest
  mantissa ++ writtenExponent (point - 1)

/-- A double as messages and log lines show it: the shortest decimal that reads back, positional
where the exponent is small. -/
def written (x : Binary64) : List Char :=
  if x.isNaN then ['n', 'a', 'n']
  else
    let size : List Char :=
      if x.isInfinite then ['i', 'n', 'f']
      else if x.isZero then ['0', '.', '0']
      else
        let (ds, point) := x.shortest.digitsAndPoint
        if -4 < point && point ≤ 16 then positional ds point else scientific ds point
    if x.isNegative then '-' :: size else size

/-- A double as the exposed metrics show it.  Infinities have a sign, and a whole part of more than
six digits is shown with an exponent. -/
def exposed (x : Binary64) : List Char :=
  if x.isNaN then ['N', 'a', 'N']
  else if x.isInfinite then
    if x.isNegative then ['-', 'I', 'n', 'f'] else ['+', 'I', 'n', 'f']
  else
    let text := x.written
    let whole := text.takeWhile (· != '.')
    match whole, x.isNegative, whole.length == text.length with
    | first :: rest, false, false =>
      if 6 < whole.length then
        let mantissa := first :: '.' :: rest ++ text.drop (whole.length + 1)
        let kept := (mantissa.reverse.dropWhile fun c => c == '0' || c == '.').reverse
        kept ++ writtenExponent (whole.length - 1)
      else text
    | _, _, _ => text

end Binary64

end SecretMirror
