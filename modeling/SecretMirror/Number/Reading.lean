import SecretMirror.Number.Binary64
import SecretMirror.Text.Blank

/-!
# Reading numbers

The numbers that settings are given as.  White space around a number is passed over, digits may be
those of any script, and single underscores may stand between two digits.

* `readWhole` reads a whole number: a sign and digits, of which there may be only so many.
* `readDouble?` reads a double: a sign, then digits with a point somewhere among them or beside them
  and perhaps an exponent, or the name of an infinity or of the number that is none.
-/

namespace SecretMirror.Number

def trim (text : List Char) : List Char :=
  let front := text.dropWhile Text.isNumberMargin
  (front.reverse.dropWhile Text.isNumberMargin).reverse

def splitSign : List Char → Bool × List Char
  | '-' :: rest => (true, rest)
  | '+' :: rest => (false, rest)
  | rest => (false, rest)

/-- The text without its underscores, if each of them stands between two digits.  `afterDigit` says
whether the text follows a digit. -/
def dropUnderscores? : Bool → List Char → Option (List Char)
  | _, [] => some []
  | afterDigit, c :: rest =>
    if c = '_' then
      match rest with
      | d :: _ =>
        if afterDigit && (Text.digitValue? d).isSome then dropUnderscores? false rest else none
      | [] => none
    else (dropUnderscores? (Text.digitValue? c).isSome rest).map (c :: ·)

def spanDigits : List Char → List Nat × List Char
  | [] => ([], [])
  | c :: rest =>
    match Text.digitValue? c with
    | some d => (d :: (spanDigits rest).1, (spanDigits rest).2)
    | none => ([], c :: rest)

/-- The values of the characters of a text that consists of digits and is not empty.  Digits of any
script count. -/
def allDigits? (text : List Char) : Option (List Nat) :=
  match spanDigits text with
  | (d :: ds, []) => some (d :: ds)
  | _ => none

/-! ## Whole numbers -/

/-- Why a text is not read as a whole number: it is no numeral, or it has more digits than are
read. -/
inductive Unreadable where
  /-- It does not stand for one. -/
  | notWhole
  /-- It has this many digits. -/
  | tooLong (count : Nat)
  deriving DecidableEq, Repr

/-- Whether a character may be part of the digits of a number, underscores included. -/
def isDigitOrGap (c : Char) : Bool := c == '_' || (Text.digitValue? c).isSome

/-- The whole number that a text stands for.  The digits at its front are counted before what
follows them is looked at, so a text that is too long is reported as that even if it does not stand
for a number. -/
def readWhole (text : String) : Except Unreadable Int :=
  let (negative, rest) := splitSign (trim text.toList)
  match dropUnderscores? false (rest.takeWhile isDigitOrGap) with
  | none => .error .notWhole
  | some digits =>
    if Text.digitLimit < digits.length then .error (.tooLong digits.length)
    else
      match allDigits? digits, rest.dropWhile isDigitOrGap with
      | some ds, [] =>
        let n : Int := Text.digitsValue ds
        .ok (if negative then -n else n)
      | _, _ => .error .notWhole

/-! ## Doubles -/

/-- The exponent at the end of a number. -/
def readExponent? : List Char → Option Int
  | [] => some 0
  | c :: rest =>
    if c = 'e' ∨ c = 'E' then do
      let (negative, rest) := splitSign rest
      let ds ← allDigits? rest
      let n : Int := Text.digitsValue ds
      return if negative then -n else n
    else none

/-- A number that is neither infinite nor none, without its sign. -/
def readFinite? (negative : Bool) (text : List Char) : Option Binary64 := do
  let (whole, rest) := spanDigits text
  let (fraction, rest) := match rest with
    | '.' :: rest => spanDigits rest
    | rest => ([], rest)
  if (whole ++ fraction).isEmpty then none
  else
    let e ← readExponent? rest
    return Binary64.ofDigits negative (whole ++ fraction) (e - fraction.length)

/-- A name in small letters, as far as they are ASCII. -/
def smallName (c : Char) : Char :=
  if 'A' ≤ c ∧ c ≤ 'Z' then Char.ofNat (c.toNat + 32) else c

/-- The double that a text stands for, names of the infinities included. -/
def readDouble? (text : String) : Option Binary64 := do
  let plain ← dropUnderscores? false (trim text.toList)
  let (negative, rest) := splitSign plain
  let name := String.ofList (rest.map smallName)
  if name = "inf" ∨ name = "infinity" then some (Binary64.infinity negative)
  else if name = "nan" then some (Binary64.nan negative)
  else readFinite? negative rest

end SecretMirror.Number
