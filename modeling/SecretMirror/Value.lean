import SecretMirror.Fields
import SecretMirror.Number.Binary64

/-!
# Values of arbitrary shape

Watch events and API answers may carry anything that a JSON document can hold, and besides byte
strings and read-only views of objects.  A `Value` is any of these.

* `Value.kind` is the shape of a value, `Kind.name` the word that messages use for it.
* `Value.isVoid` holds of the values that count as nothing: null, false, zero, and whatever is
  empty.
* `Value.same` is equality of content: numbers by what they amount to, objects whatever the order of
  their fields and whether plain or a view.
* `Value.atom?` gives the atom by which a value without parts can serve as a key.
-/

namespace SecretMirror

abbrev Bytes := List UInt8

/-- A value of arbitrary shape.  Objects keep the order of their fields, and a view of an object is
told from a plain one, since not everything that can be read from a view can be done with it. -/
inductive Value where
  /-- The absent value. -/
  | null
  /-- A truth value. -/
  | bool (b : Bool)
  /-- A whole number. -/
  | int (n : Int)
  /-- A number that was written with a fraction or an exponent. -/
  | double (x : Binary64)
  /-- A text. -/
  | text (s : String)
  /-- A byte string. -/
  | bytes (b : Bytes)
  /-- A list. -/
  | list (items : List Value)
  /-- A plain object. -/
  | object (fields : List (String × Value))
  /-- A view of an object that can be looked at like one but is none. -/
  | view (fields : List (String × Value))
  deriving Inhabited

namespace Value

inductive Kind where
  | null | bool | int | double | text | bytes | list | object | view
  deriving DecidableEq, Repr

/-- The word for a shape in messages. -/
def Kind.name : Kind → String
  | .null => "NoneType"
  | .bool => "bool"
  | .int => "int"
  | .double => "float"
  | .text => "str"
  | .bytes => "bytes"
  | .list => "list"
  | .object => "dict"
  | .view => "UserDict"

def kind : Value → Kind
  | .null => .null
  | .bool _ => .bool
  | .int _ => .int
  | .double _ => .double
  | .text _ => .text
  | .bytes _ => .bytes
  | .list _ => .list
  | .object _ => .object
  | .view _ => .view

/-- Whether a value counts as nothing: null, false, zero, or empty.  Where a section is void, an
empty one is taken in its place. -/
def isVoid : Value → Bool
  | .null => true
  | .bool b => !b
  | .int n => n == 0
  | .double x => x.isZero
  | .text s => s.isEmpty
  | .bytes b => b.isEmpty
  | .list items => items.isEmpty
  | .object fields => fields.isEmpty
  | .view fields => fields.isEmpty

/-- The fields of an object, plain or a view.  Anything else has none. -/
def fields? : Value → Option (Fields Value)
  | .object fields => some fields
  | .view fields => some fields
  | _ => none

def text? : Value → Option String
  | .text s => some s
  | _ => none

/-! ## Equality of content -/

/-- What a value without parts amounts to.  Truth values count as one and zero, and a double that is
a whole number counts as that number, so two values with the same atom are equal. -/
inductive Atom where
  | null
  | whole (n : Int)
  | fraction (x : Binary64)
  | text (s : String)
  | bytes (b : Bytes)
  deriving DecidableEq

/-- The atom of a value without parts.  Lists, objects and views have none, so they cannot be
keys. -/
def atom? : Value → Option Atom
  | .null => some .null
  | .bool b => some (.whole (if b then 1 else 0))
  | .int n => some (.whole n)
  | .double x => some (match x.toInt? with
    | some n => .whole n
    | none => .fraction x)
  | .text s => some (.text s)
  | .bytes b => some (.bytes b)
  | .list _ => none
  | .object _ => none
  | .view _ => none

mutual

/-- Equality of content.  Lists are equal item by item, objects field by field in any order, and a
view equals the object that it shows. -/
def same : Value → Value → Bool
  | .list xs, .list ys => sameItems xs ys
  | .object fs, .object gs => fs.length == gs.length && sameFields fs gs
  | .object fs, .view gs => fs.length == gs.length && sameFields fs gs
  | .view fs, .object gs => fs.length == gs.length && sameFields fs gs
  | .view fs, .view gs => fs.length == gs.length && sameFields fs gs
  | v, w =>
    match v.atom?, w.atom? with
    | some a, some b => a == b
    | _, _ => false

def sameItems : List Value → List Value → Bool
  | [], [] => true
  | x :: xs, y :: ys => same x y && sameItems xs ys
  | _, _ => false

/-- Whether every field of the first list is found with the same content in the second. -/
def sameFields : List (String × Value) → List (String × Value) → Bool
  | [], _ => true
  | (k, v) :: fs, gs =>
    (match Fields.get? gs k with
      | some w => same v w
      | none => false) && sameFields fs gs

end

/-- Whether a value amounts to the whole number `n`. -/
def isNumber (v : Value) (n : Int) : Bool := v.atom? == some (.whole n)

end Value

end SecretMirror
