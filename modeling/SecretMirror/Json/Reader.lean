import SecretMirror.Value
import SecretMirror.Text.Digit

/-!
# Reading JSON

The value that a JSON document stands for.  Whole numbers stay whole and all others become doubles,
as do the names of the infinities and of the number that is none.  A name that is given twice keeps
its first place and its last value.  A document with a whole number of too many digits is not read,
just as such a number is not written.  A document is read by descent, bounded by its length.
-/

namespace SecretMirror.Json

def isGap (c : Char) : Bool := c == ' ' || c == '\t' || c == '\n' || c == '\r'

def skipGap (text : List Char) : List Char := text.dropWhile isGap

/-! ## Texts -/

def hexValue? (c : Char) : Option Nat :=
  if '0' ≤ c ∧ c ≤ '9' then some (c.toNat - 48)
  else if 'a' ≤ c ∧ c ≤ 'f' then some (c.toNat - 87)
  else if 'A' ≤ c ∧ c ≤ 'F' then some (c.toNat - 55)
  else none

/-- The UTF-16 unit that four hexadecimal digits stand for. -/
def unit? (a b c d : Char) : Option Nat := do
  let a ← hexValue? a
  let b ← hexValue? b
  let c ← hexValue? c
  let d ← hexValue? d
  return 4096 * a + 256 * b + 16 * c + d

def shortEscape? (c : Char) : Option Char :=
  if c = '\x22' then some '\x22'
  else if c = '\\' then some '\\'
  else if c = '/' then some '/'
  else if c = 'b' then some '\x08'
  else if c = 'f' then some '\x0c'
  else if c = 'n' then some '\n'
  else if c = 'r' then some '\r'
  else if c = 't' then some '\t'
  else none

/-- Reads on inside a text up to its closing quote: the characters, and what follows the quote.  Two
escaped units that form a pair make one character; a lone half of a pair makes none. -/
def readChars : List Char → Option (List Char × List Char)
  | [] => none
  | '\\' :: 'u' :: a :: b :: c :: d :: rest =>
    (unit? a b c d).bind fun n =>
      if 0xd800 ≤ n ∧ n < 0xdc00 then
        match rest with
        | '\\' :: 'u' :: a' :: b' :: c' :: d' :: rest =>
          (unit? a' b' c' d').bind fun low =>
            if 0xdc00 ≤ low ∧ low < 0xe000 then
              (readChars rest).map fun (cs, rest) =>
                (Char.ofNat (0x10000 + (n - 0xd800) * 0x400 + (low - 0xdc00)) :: cs, rest)
            else none
        | _ => none
      else if 0xdc00 ≤ n ∧ n < 0xe000 then none
      else (readChars rest).map fun (cs, rest) => (Char.ofNat n :: cs, rest)
  | '\\' :: c :: rest =>
    (shortEscape? c).bind fun e => (readChars rest).map fun (cs, rest) => (e :: cs, rest)
  | c :: rest =>
    if c = '\x22' then some ([], rest)
    else if c.toNat < 32 ∨ c = '\\' then none
    else (readChars rest).map fun (cs, rest) => (c :: cs, rest)

/-! ## Numbers -/

def spanDigits : List Char → List Nat × List Char
  | [] => ([], [])
  | c :: rest =>
    match Text.asciiDigit? c with
    | some d => (d :: (spanDigits rest).1, (spanDigits rest).2)
    | none => ([], c :: rest)

/-- A fraction, if there is one: its digits, and what follows.  A point without digits is not
read. -/
def readFraction : List Char → Option (List Nat × List Char)
  | '.' :: rest =>
    match spanDigits rest with
    | ([], _) => none
    | (ds, rest) => some (ds, rest)
  | rest => some ([], rest)

/-- An exponent, if there is one, and what follows. -/
def readExponent : List Char → Option (Option Int × List Char)
  | c :: rest =>
    if c = 'e' ∨ c = 'E' then
      let (negative, rest) := match rest with
        | '-' :: rest => (true, rest)
        | '+' :: rest => (false, rest)
        | rest => (false, rest)
      match spanDigits rest with
      | ([], _) => none
      | (ds, rest) =>
        let n : Int := Text.digitsValue ds
        some (some (if negative then -n else n), rest)
    else some (none, c :: rest)
  | [] => some (none, [])

/-- A number without its sign.  Leading zeros are refused, and so is a whole number of more than
`Text.digitLimit` digits; a double may have any number of them. -/
def readMagnitude (negative : Bool) (text : List Char) : Option (Value × List Char) :=
  match spanDigits text with
  | ([], _) => none
  | (0 :: _ :: _, _) => none
  | (whole, rest) =>
    (readFraction rest).bind fun (fraction, rest) =>
      (readExponent rest).bind fun (exponent?, rest) =>
        match fraction, exponent? with
        | [], none =>
          if Text.digitLimit < whole.length then none
          else
            let n : Int := Text.digitsValue whole
            some (.int (if negative then -n else n), rest)
        | _, _ =>
          some (.double (Binary64.ofDigits negative (whole ++ fraction)
            (exponent?.getD 0 - fraction.length)), rest)

/-- A number without its sign, which may be infinite. -/
def readSize (negative : Bool) : List Char → Option (Value × List Char)
  | 'I' :: 'n' :: 'f' :: 'i' :: 'n' :: 'i' :: 't' :: 'y' :: rest =>
    some (.double (Binary64.infinity negative), rest)
  | text => readMagnitude negative text

/-! ## Values -/

mutual

/-- A value at the front of a document, and what follows it.  Every step down and every step along
takes one unit of fuel. -/
def readValue : Nat → List Char → Option (Value × List Char)
  | 0, _ => none
  | fuel + 1, text =>
    match skipGap text with
    | 'n' :: 'u' :: 'l' :: 'l' :: rest => some (.null, rest)
    | 't' :: 'r' :: 'u' :: 'e' :: rest => some (.bool true, rest)
    | 'f' :: 'a' :: 'l' :: 's' :: 'e' :: rest => some (.bool false, rest)
    | '\x22' :: rest => (readChars rest).map fun (cs, rest) => (.text (String.ofList cs), rest)
    | '[' :: rest =>
      match skipGap rest with
      | ']' :: rest => some (.list [], rest)
      | rest => (readItems fuel rest).map fun (items, rest) => (.list items, rest)
    | '\x7b' :: rest =>
      match skipGap rest with
      | '\x7d' :: rest => some (.object [], rest)
      | rest =>
        (readFields fuel rest).map fun (fields, rest) => (.object (Fields.ofList fields), rest)
    | 'N' :: 'a' :: 'N' :: rest => some (.double (Binary64.nan false), rest)
    | '-' :: rest => readSize true rest
    | rest => readSize false rest

def readItems : Nat → List Char → Option (List Value × List Char)
  | 0, _ => none
  | fuel + 1, text =>
    (readValue fuel text).bind fun (v, rest) =>
      match skipGap rest with
      | ',' :: rest => (readItems fuel rest).map fun (items, rest) => (v :: items, rest)
      | ']' :: rest => some ([v], rest)
      | _ => none

def readFields : Nat → List Char → Option (List (String × Value) × List Char)
  | 0, _ => none
  | fuel + 1, text =>
    match skipGap text with
    | '\x22' :: rest =>
      (readChars rest).bind fun (cs, rest) =>
        match skipGap rest with
        | ':' :: rest =>
          (readValue fuel rest).bind fun (v, rest) =>
            match skipGap rest with
            | ',' :: rest =>
              (readFields fuel rest).map fun (fields, rest) =>
                ((String.ofList cs, v) :: fields, rest)
            | '\x7d' :: rest => some ([(String.ofList cs, v)], rest)
            | _ => none
        | _ => none
    | _ => none

end

/-- The value that a whole document stands for.  The fuel is twice its length, which no document
needs in full. -/
def read (text : List Char) : Option Value :=
  (readValue (2 * text.length + 1) text).bind fun (v, rest) =>
    if (skipGap rest).isEmpty then some v else none

end SecretMirror.Json
