import SecretMirror.Fault
import SecretMirror.Number.Written
import SecretMirror.Text.Quoted

/-!
# Writing JSON

A value as one line of printable ASCII: a blank after every comma and colon, fields in their order,
and every character that is not printable ASCII as an escape, by its letter if it has one and by its
UTF-16 units otherwise.

Byte strings and views have no JSON form, and a whole number of too many digits is not written
either.  `Json.unwritable?` finds the first such part, in the order in which the parts would be
written; it says why nothing is written at all.
-/

namespace SecretMirror.Json

def unitEscape (unit : Nat) : List Char := '\\' :: 'u' :: Text.hexDigits 4 unit

/-- One character of a text: as it is if it is printable ASCII, and as an escape otherwise, by its
letter if it has one. -/
def writeChar (c : Char) : List Char :=
  if c = '\x22' then ['\\', '\x22']
  else if c = '\\' then ['\\', '\\']
  else if c = '\n' then ['\\', 'n']
  else if c = '\r' then ['\\', 'r']
  else if c = '\t' then ['\\', 't']
  else if c = '\x08' then ['\\', 'b']
  else if c = '\x0c' then ['\\', 'f']
  else if 32 ≤ c.toNat ∧ c.toNat < 127 then [c]
  else if c.toNat < 0x10000 then unitEscape c.toNat
  else
    let n := c.toNat - 0x10000
    unitEscape (0xd800 + n / 0x400) ++ unitEscape (0xdc00 + n % 0x400)

def writeText (s : String) : List Char := '\x22' :: s.toList.flatMap writeChar ++ ['\x22']

/-- A double.  The infinities and the number that is none go by names, which JSON itself does not
have. -/
def writeDouble (x : Binary64) : List Char :=
  if x.isNaN then "NaN".toList
  else if x.isInfinite then
    if x.isNegative then "-Infinity".toList else "Infinity".toList
  else x.written

mutual

/-- A value on one line, with its fields in their order.  Parts without a JSON form are left out
here; `unwritable?` says whether there are any. -/
def write : Value → List Char
  | .null => "null".toList
  | .bool b => if b then "true".toList else "false".toList
  | .int n => Text.integerDigits n
  | .double x => writeDouble x
  | .text s => writeText s
  | .bytes _ => []
  | .list items => '[' :: writeItems items ++ [']']
  | .object fields => '\x7b' :: writeFields fields ++ ['\x7d']
  | .view _ => []

def writeItems : List Value → List Char
  | [] => []
  | [v] => write v
  | v :: rest => write v ++ ',' :: ' ' :: writeItems rest

def writeFields : List (String × Value) → List Char
  | [] => []
  | [(k, v)] => writeText k ++ ':' :: ' ' :: write v
  | (k, v) :: rest => writeText k ++ ':' :: ' ' :: write v ++ ',' :: ' ' :: writeFields rest

end

mutual

/-- Why a value is not written: the reason for the first of its parts that has no JSON form, in the
order in which they would be written. -/
def unwritable? : Value → Option Malformed
  | .int n => if Text.isTooLong n then some .tooManyDigits else none
  | .bytes _ => some (.notWritable .bytes)
  | .view _ => some (.notWritable .view)
  | .list items => unwritableItem? items
  | .object fields => unwritableField? fields
  | _ => none

def unwritableItem? : List Value → Option Malformed
  | [] => none
  | v :: rest => (unwritable? v).or (unwritableItem? rest)

/-- Why an object is not written.  Its names are texts, so they never are the reason. -/
def unwritableField? : List (String × Value) → Option Malformed
  | [] => none
  | (_, v) :: rest => (unwritable? v).or (unwritableField? rest)

end

end SecretMirror.Json
