import SecretMirror.Fault

/-!
# Secrets

A namespaced secret with decoded data.  Names, type, versions and annotations are kept as whatever
the API or a watch event said they were, and are not coerced: deciding who owns a secret has to cope
with any shape.  So are finalizers, labels and owners, which are normally lists and an object.  A
data section that is not given is `none`, which is not the same as an empty one.

* `Secret.same` is equality of content, field by field.
* `Secret.reference` names a secret as the object of an event.
-/

namespace SecretMirror

/-- The data of a secret: byte strings under their names, in the order in which they were given. -/
abbrev Data := Fields Bytes

/-- A namespaced secret with decoded data, as the class `Secret` holds it.  Every field but the data
is a value of any shape, since nothing that comes from the API or a watch event is coerced. -/
structure Secret where
  /-- The name, usually a text. -/
  name : Value
  /-- The namespace, usually a text. -/
  space : Value
  /-- The data; `none` if there is no data section. -/
  data : Option Data := some []
  /-- The annotations, normally an object. -/
  annotations : Value := .object []
  /-- The finalizers, normally a list. -/
  finalizers : Value := .list []
  /-- The labels, normally an object. -/
  labels : Value := .object []
  /-- The type of the secret, such as `Opaque`. -/
  type : Value := .null
  /-- The version of the object that this is a copy of. -/
  resourceVersion : Value := .null
  /-- The identity of the object across renames and re-creations. -/
  uid : Value := .null
  /-- The objects that own this one, normally a list. -/
  ownerReferences : Value := .list []

/-- The items of a value, as a loop goes over them: the characters of a text, the names of an
object, the numbers in a byte string.  A number, a truth value and null have none. -/
def Value.items (v : Value) : Except Malformed (List Value) :=
  match v with
  | .text s => .ok (s.toList.map fun c => .text c.toString)
  | .bytes b => .ok (b.map fun x => .int x.toNat)
  | .list items => .ok items
  | .object fields => .ok (fields.map fun (k, _) => .text k)
  | .view fields => .ok (fields.map fun (k, _) => .text k)
  | other => .error (.notIterable other.kind)

/-- Whether two data sections bind the same names to the same bytes, in whatever order
(`data_equal`).  A missing section and an empty one count as equal here. -/
def Data.equal (left right : Option Data) : Bool :=
  (left.getD []).agree (right.getD [])

theorem Data.equal_of_copied {left right : Option Data} (h : left = right) :
    Data.equal left right = true := by
  subst h
  exact Fields.agree_iff.2 fun _ => rfl

namespace Secret

/-- Whether two data sections have the same content.  Other than for `Data.equal`, a missing section
and an empty one differ. -/
def sameData : Option Data → Option Data → Bool
  | none, none => true
  | some x, some y => x.agree y
  | _, _ => false

/-- Equality of content in all ten fields, by which two secrets count as one. -/
def same (s t : Secret) : Bool :=
  s.name.same t.name && s.space.same t.space &&
    sameData s.data t.data && s.annotations.same t.annotations &&
    s.finalizers.same t.finalizers && s.labels.same t.labels && s.type.same t.type &&
    s.resourceVersion.same t.resourceVersion && s.uid.same t.uid &&
    s.ownerReferences.same t.ownerReferences

/-- The reference by which an event names its object (`reference`).  The identity is left out if it
is void, as it is for a secret that was never stored. -/
def reference (s : Secret) : Value :=
  let identity : List (String × Value) := if s.uid.isVoid then [] else [("uid", s.uid)]
  .object [("apiVersion", .text "v1"), ("kind", .text "Secret"),
    ("metadata", .object ([("name", s.name), ("namespace", s.space)] ++ identity))]

/-! ## Changing a copy -/

/-- A secret with one more datum.  There has to be a data section to add it to. -/
def withDatum (s : Secret) (name : String) (bytes : Bytes) : Except Malformed Secret :=
  match s.data with
  | some data => .ok { s with data := some (data.set name bytes) }
  | none => .error (.notSettable .null)

/-- A secret with one more finalizer at the end.  The finalizers have to be a list for this. -/
def withFinalizer (s : Secret) (finalizer : Value) : Except Malformed Secret :=
  match s.finalizers with
  | .list finalizers => .ok { s with finalizers := .list (finalizers ++ [finalizer]) }
  | other => .error (.notExtendable other.kind)

/-- An object with one more field, or with another value in the place of the old one. -/
def setField (name : String) (v : Value) : Value → Except Malformed Value
  | .object fields => .ok (.object (Fields.set fields name v))
  | .view fields => .ok (.view (Fields.set fields name v))
  | other => .error (.notSettable other.kind)

def withLabel (s : Secret) (name : String) (v : Value) : Except Malformed Secret := do
  let labels ← setField name v s.labels
  return { s with labels := labels }

/-- A secret with one more field in every owner reference.  Owners that are no list have to be
empty, since none of their items has fields. -/
def withOwnerField (s : Secret) (name : String) (v : Value) : Except Malformed Secret := do
  let owners ← s.ownerReferences.items
  let marked ← owners.mapM (setField name v)
  match s.ownerReferences with
  | .list _ => return { s with ownerReferences := .list marked }
  | _ => return s

end Secret

end SecretMirror
