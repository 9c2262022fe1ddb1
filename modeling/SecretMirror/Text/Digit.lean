/-!
# Decimal digits

Numbers are read with the decimal digits of any script and written with those of ASCII.  The table
of digits follows Unicode 14.

* `digitValue?` is the value of a digit of any script.
* `digits` writes a natural number; `digitsValue` reads a list of digit values back.
* `isTooLong` holds of the whole numbers that are neither read nor written, because they have more
  than `digitLimit` digits.
-/

namespace SecretMirror.Text

/-- The code points of the digits zero; the other nine digits follow each of them. -/
def zeroDigits : List Nat := [
  48, 1632, 1776, 1984, 2406, 2534, 2662, 2790, 2918, 3046, 3174, 3302, 3430, 3558, 3664, 3792,
  3872, 4160, 4240, 6112, 6160, 6470, 6608, 6784, 6800, 6992, 7088, 7232, 7248, 42528, 43216,
  43264, 43472, 43504, 43600, 44016, 65296, 66720, 68912, 69734, 69872, 69942, 70096, 70384,
  70736, 70864, 71248, 71360, 71472, 71904, 72016, 72784, 73040, 73120, 92768, 92864, 93008,
  120782, 120792, 120802, 120812, 120822, 123200, 123632, 125264, 130032]

/-- The value of a decimal digit of any script. -/
def digitValue? (c : Char) : Option Nat :=
  (zeroDigits.find? fun z => z ≤ c.toNat && c.toNat < z + 10).map (c.toNat - ·)

def asciiDigit? (c : Char) : Option Nat :=
  if '0' ≤ c ∧ c ≤ '9' then some (c.toNat - 48) else none

def digitChar (d : Nat) : Char := Char.ofNat (48 + d)

/-- The number that a list of digit values stands for, most significant first. -/
def digitsValue (ds : List Nat) : Nat := ds.foldl (fun n d => 10 * n + d) 0

/-- The decimal digits of `n` in front of `rest`.  `fuel` bounds the number of digits. -/
def digitsBefore : Nat → Nat → List Char → List Char
  | 0, _, rest => rest
  | fuel + 1, n, rest =>
    if n < 10 then digitChar n :: rest
    else digitsBefore fuel (n / 10) (digitChar (n % 10) :: rest)

/-- The decimal digits of a natural number, without leading zeros. -/
def digits (n : Nat) : List Char := digitsBefore (n + 1) n []

def integerDigits : Int → List Char
  | .ofNat n => digits n
  | .negSucc n => '-' :: digits (n + 1)

/-- How many digits a whole number may have that is read from a text or written as one.  Beyond this
the conversion is refused with a value error, in either direction. -/
def digitLimit : Nat := 4300

/-- Whether a whole number has too many decimal digits to be read or written.  Its sign does not
count as one. -/
def isTooLong (n : Int) : Bool := digitLimit < (digits n.natAbs).length

end SecretMirror.Text
