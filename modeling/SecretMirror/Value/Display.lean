import SecretMirror.Value
import SecretMirror.Number.Written
import SecretMirror.Text.Quoted

/-!
# Values in messages

How a value appears inside a message.  A text stands for itself; inside a list or an object it is
quoted.  Byte strings show their printable ASCII bytes and name the others.
-/

namespace SecretMirror.Value

def quotedBytes (b : Bytes) : List Char :=
  let quote := Text.quoteFor (b.map fun x => Char.ofNat x.toNat)
  let byte (x : UInt8) : List Char :=
    if x < 0x7f then Text.quotedChar quote (Char.ofNat x.toNat)
    else '\\' :: 'x' :: Text.hexDigits 2 x.toNat
  'b' :: quote :: b.flatMap byte ++ [quote]

mutual

/-- A value inside a list or an object, where texts are quoted. -/
def nested : Value → List Char
  | .null => "None".toList
  | .bool b => if b then "True".toList else "False".toList
  | .int n => Text.integerDigits n
  | .double x => x.written
  | .text s => Text.quoted s.toList
  | .bytes b => quotedBytes b
  | .list items => '[' :: nestedItems items ++ [']']
  | .object fields => '\x7b' :: nestedFields fields ++ ['\x7d']
  | .view fields => '\x7b' :: nestedFields fields ++ ['\x7d']

def nestedItems : List Value → List Char
  | [] => []
  | [v] => nested v
  | v :: rest => nested v ++ ',' :: ' ' :: nestedItems rest

def nestedFields : List (String × Value) → List Char
  | [] => []
  | [(k, v)] => Text.quoted k.toList ++ ':' :: ' ' :: nested v
  | (k, v) :: rest =>
    Text.quoted k.toList ++ ':' :: ' ' :: nested v ++ ',' :: ' ' :: nestedFields rest

end

/-- A value in a message.  A text stands for itself there, without quotes. -/
def display : Value → String
  | .text s => s
  | v => String.ofList v.nested

mutual

/-- Whether a whole number of too many digits is somewhere in a value, so that the value cannot be
shown in a message. -/
def hasTooLong : Value → Bool
  | .int n => Text.isTooLong n
  | .list items => hasTooLongItem items
  | .object fields => hasTooLongField fields
  | .view fields => hasTooLongField fields
  | _ => false

def hasTooLongItem : List Value → Bool
  | [] => false
  | v :: rest => hasTooLong v || hasTooLongItem rest

def hasTooLongField : List (String × Value) → Bool
  | [] => false
  | (_, v) :: rest => hasTooLong v || hasTooLongField rest

end

end SecretMirror.Value
