import SecretMirror.Base64
import SecretMirror.Json.Writer
import SecretMirror.Secret

/-!
# Secrets on the wire

A secret comes in as the body of a watch event, which is a value of any shape (`Secret.ofBody`), or
as the record that an API call returns (`Secret.ofWire`), and goes out as such a record
(`Secret.toWire`).  Data is base64 text on the wire; sections that are void are null there.

Reading a section takes what counts as nothing for an empty section, a list for its items, a text
for its characters and an object for its names; labels may also be a list of pairs.  The first
section that cannot be read decides the fault: data, then finalizers, labels and owners.
-/

namespace SecretMirror

/-- The metadata of a secret on the wire, with null for what is not given. -/
structure WireMetadata where
  name : Value := .null
  space : Value := .null
  annotations : Value := .null
  finalizers : Value := .null
  labels : Value := .null
  resourceVersion : Value := .null
  uid : Value := .null
  ownerReferences : Value := .null
  deriving Inhabited

/-- A secret as API calls take and return it: the record `V1Secret` of the API client. -/
structure WireSecret where
  apiVersion : Value := .null
  kind : Value := .null
  metadata : WireMetadata := {}
  type : Value := .null
  data : Value := .null
  deriving Inhabited

/-! ## Sections -/

def Value.fieldsFor (v : Value) (operation : String) : Except Malformed (Fields Value) :=
  match v.fields? with
  | some fields => .ok fields
  | none => .error (.noFields v.kind operation)

/-- The name that a value stands for as a key: a text stands for itself, a byte string for how
messages show it, and any other value for its JSON text. -/
def Value.asName (v : Value) : String :=
  match v with
  | .text s => s
  | .bytes b => Value.display (.bytes b)
  | other => String.ofList (Json.write other)

/-- An entry of an object that is being made: what its key amounts to, the name that the key stands
for, and its value. -/
structure KeyedEntry where
  atom : Value.Atom
  name : String
  value : Value

namespace KeyedEntry

/-- The entry with a key of any shape, which has to be without parts. -/
def ofValues (key value : Value) : Except Malformed KeyedEntry :=
  match key.atom? with
  | some atom => .ok ⟨atom, key.asName, value⟩
  | none => .error (.notAKey key.kind)

/-- Adds an entry.  If there is an entry under an equal key, the name by which that key was given
first is kept, and the value that was given last. -/
def insert : List KeyedEntry → KeyedEntry → List KeyedEntry
  | [], e => [e]
  | d :: rest, e =>
    if d.atom = e.atom then { d with value := e.value } :: rest else d :: insert rest e

/-- The fields that the entries make. -/
def toFields (entries : List KeyedEntry) : Fields Value :=
  Fields.ofList ((entries.foldl insert []).map fun e => (e.name, e.value))

end KeyedEntry

/-- The entry at a position in a list of keys and values.  An item that is no pair is reported by
its position, and one with no parts at all by another fault. -/
def Value.entryAt (index : Nat) (v : Value) : Except Malformed KeyedEntry :=
  match v.items with
  | .error _ => .error (.noParts index)
  | .ok [key, value] => KeyedEntry.ofValues key value
  | .ok parts => .error (.notAPair index parts.length)

/-- The entries of a list of keys and values, of which `index` is the first position.  The position
is named when an entry has no two parts. -/
def Value.entriesFrom : Nat → List Value → Except Malformed (List KeyedEntry)
  | _, [] => .ok []
  | index, v :: rest => do
    let entry ← v.entryAt index
    let entries ← entriesFrom (index + 1) rest
    return entry :: entries

/-- The fields of an object, or of the object that a list of keys and values makes. -/
def Value.toFields (v : Value) : Except Malformed (Fields Value) :=
  match v.fields? with
  | some fields => .ok fields
  | none => do
    let items ← v.items
    let entries ← Value.entriesFrom 0 items
    return KeyedEntry.toFields entries

/-- A section that is a list.  A void one counts as empty, whatever its shape. -/
def Value.listSection (v : Value) : Except Malformed (List Value) :=
  if v.isVoid then .ok [] else v.items

/-- A section that is an object, or a list of pairs.  A void one counts as empty. -/
def Value.fieldSection (v : Value) : Except Malformed (Fields Value) :=
  if v.isVoid then .ok [] else v.toFields

/-- One datum: bytes as they are, or base64 text.  A text that is no base64 is a fault. -/
def Value.datum (v : Value) : Except Malformed Bytes :=
  match v with
  | .bytes b => .ok b
  | .text s =>
    if s.toList.all fun c => c.toNat < 128 then Base64.decode s.toList else .error .notAscii
  | other => .error (.notEncoded other.kind)

/-- The data of a list of named base64 texts.  The first datum that cannot be read decides the
fault. -/
def Data.ofFields : List (String × Value) → Except Malformed Data
  | [] => .ok []
  | (k, v) :: rest => do
    let bytes ← v.datum
    let data ← ofFields rest
    return (k, bytes) :: data

/-- The data section, decoded (`_decode_data`).  A void section is an empty one, so a secret that
was read always has data. -/
def Value.dataSection (v : Value) : Except Malformed Data :=
  if v.isVoid then .ok []
  else do
    let fields ← v.fieldsFor "items"
    Data.ofFields fields

/-- Annotations are taken as they are, since who owns a secret has to be decided for any shape of
them; only null counts as none. -/
def Value.annotationSection (v : Value) : Value :=
  match v with
  | .null => .object []
  | other => other

/-! ## Coming in -/

namespace Secret

/-- The secret in an API record (`from_k8s`). -/
def ofWire (w : WireSecret) : Except Malformed Secret := do
  let data ← w.data.dataSection
  let finalizers ← w.metadata.finalizers.listSection
  let labels ← w.metadata.labels.fieldSection
  let owners ← w.metadata.ownerReferences.listSection
  return {
    name := w.metadata.name
    space := w.metadata.space
    data := some data
    annotations := w.metadata.annotations.annotationSection
    finalizers := .list finalizers
    labels := .object labels
    type := w.type
    resourceVersion := w.metadata.resourceVersion
    uid := w.metadata.uid
    ownerReferences := .list owners }

def entry (fields : Fields Value) (name : String) : Value := (fields.get? name).getD .null

/-- The secret in the body of a watch event (`from_dict`).  A body without metadata has empty
metadata; one whose metadata is no object is a fault. -/
def ofBody (body : Value) : Except Malformed Secret := do
  let fields ← body.fieldsFor "get"
  let about ← ((fields.get? "metadata").getD (.object [])).fieldsFor "get"
  let data ← (entry fields "data").dataSection
  let finalizers ← (entry about "finalizers").listSection
  let labels ← (entry about "labels").fieldSection
  let owners ← (entry about "ownerReferences").listSection
  return {
    name := entry about "name"
    space := entry about "namespace"
    data := some data
    annotations := (entry about "annotations").annotationSection
    finalizers := .list finalizers
    labels := .object labels
    type := entry fields "type"
    resourceVersion := entry about "resourceVersion"
    uid := entry about "uid"
    ownerReferences := .list owners }

/-! ## Going out -/

/-- A list on the wire: null if it is empty, which `to_k8s` sends in place of any empty section. -/
def wireList : List Value → Value
  | [] => .null
  | items => .list items

/-- An object on the wire: null if it is empty.  So an empty section of a stored secret goes out as
null. -/
def wireFields : Fields Value → Value
  | [] => .null
  | fields => .object fields

/-- Annotations on the wire.  Only a plain object is sent; any other shape goes out as none, views
included. -/
def wireAnnotations : Value → Value
  | .object fields => wireFields fields
  | _ => .null

/-- Data on the wire, as canonical base64 text (`_encode_data`). -/
def wireData (data : Data) : Value :=
  .object (data.map fun (k, bytes) => (k, .text (String.ofList (Base64.encode bytes))))

/-- The API record for a secret (`to_k8s`).  Of the sections that cannot be sent, the first in the
order finalizers, labels, owners and data decides the fault. -/
def toWire (s : Secret) : Except Malformed WireSecret := do
  let finalizers ← s.finalizers.items
  let labels ← s.labels.toFields
  let owners ← s.ownerReferences.items
  match s.data with
  | none => .error (.noFields .null "items")
  | some data =>
    return {
      apiVersion := .text "v1"
      kind := .text "Secret"
      metadata := {
        name := s.name
        space := s.space
        annotations := wireAnnotations s.annotations
        finalizers := wireList finalizers
        labels := wireFields labels
        resourceVersion := s.resourceVersion
        uid := s.uid
        ownerReferences := wireList owners }
      type := s.type
      data := wireData data }

end Secret

/-! ## Records as values -/

/-- The API record that holds the same plain values as an object.  Missing entries are null. -/
def WireSecret.ofValue (v : Value) : WireSecret :=
  let fields := v.fields?.getD []
  let about := (Secret.entry fields "metadata").fields?.getD []
  { apiVersion := Secret.entry fields "apiVersion"
    kind := Secret.entry fields "kind"
    metadata := {
      name := Secret.entry about "name"
      space := Secret.entry about "namespace"
      annotations := Secret.entry about "annotations"
      finalizers := Secret.entry about "finalizers"
      labels := Secret.entry about "labels"
      resourceVersion := Secret.entry about "resourceVersion"
      uid := Secret.entry about "uid"
      ownerReferences := Secret.entry about "ownerReferences" }
    type := Secret.entry fields "type"
    data := Secret.entry fields "data" }

/-- The object that shows all fields of an API record. -/
def WireSecret.toValue (w : WireSecret) : Value :=
  .object [
    ("apiVersion", w.apiVersion),
    ("kind", w.kind),
    ("metadata", .object [
      ("name", w.metadata.name),
      ("namespace", w.metadata.space),
      ("annotations", w.metadata.annotations),
      ("finalizers", w.metadata.finalizers),
      ("labels", w.metadata.labels),
      ("resourceVersion", w.metadata.resourceVersion),
      ("uid", w.metadata.uid),
      ("ownerReferences", w.metadata.ownerReferences)]),
    ("type", w.type),
    ("data", w.data)]

end SecretMirror
