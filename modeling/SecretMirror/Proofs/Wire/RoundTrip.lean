import SecretMirror.Cluster.Server
import SecretMirror.Decision
import SecretMirror.Proofs.Wire.Base64

/-!
# Secrets to the wire and back

A secret that was read has a data section, lists of finalizers and owners, and an object of labels
(`Secret.IsRead`).  Such a secret always has an API record (`toWire_of_isRead`), and reading that
record gives it back, except that annotations which are no plain object become empty
(`ofWire_toWire`).  Each section is read back by itself first.

A watch event that shows a stored record (`Value.Shows`) is read as that record (`ofBody_of_shows`),
so it does not matter by which way a secret came in.
-/

namespace SecretMirror

/-! ## Section by section -/

@[simp] theorem Value.listSection_wireList (items : List Value) :
    (Secret.wireList items).listSection = .ok items := by
  cases items <;> rfl

@[simp] theorem Value.fieldSection_wireFields (fields : Fields Value) :
    (Secret.wireFields fields).fieldSection = .ok fields := by
  cases fields <;> rfl

/-- What remains of annotations on the wire. -/
def Value.plain : Value → Value
  | .object fields => .object fields
  | _ => .object []

@[simp] theorem Value.plain_object (fields : Fields Value) :
    (Value.object fields).plain = .object fields := rfl

@[simp] theorem Value.annotationSection_wireAnnotations (v : Value) :
    (Secret.wireAnnotations v).annotationSection = v.plain := by
  cases v with
  | object fields => cases fields <;> rfl
  | _ => rfl

theorem Value.datum_encode (bytes : Bytes) :
    (Value.text (String.ofList (Base64.encode bytes))).datum = .ok bytes := by
  have hascii := Base64.isAscii_encode bytes
  simpa [Value.datum, Base64.decode_encode] using hascii

theorem Data.ofFields_encode (data : Data) :
    Data.ofFields (data.map fun (k, bytes) =>
      (k, Value.text (String.ofList (Base64.encode bytes)))) = .ok data := by
  induction data with
  | nil => rfl
  | cons e rest ih =>
    obtain ⟨k, bytes⟩ := e
    simp only [List.map_cons, Data.ofFields, Value.datum_encode, ih]
    rfl

@[simp] theorem Value.dataSection_wireData (data : Data) :
    (Secret.wireData data).dataSection = .ok data := by
  cases data with
  | nil => rfl
  | cons e rest => exact Data.ofFields_encode (e :: rest)

namespace Secret

/-! ## What reading gives -/

/-- The sections of a secret have the shapes that reading gives them.  Annotations are left out,
since they are taken as they come. -/
structure IsRead (s : Secret) : Prop where
  data : ∃ data, s.data = some data
  finalizers : ∃ items, s.finalizers = .list items
  labels : ∃ fields, s.labels = .object fields
  ownerReferences : ∃ items, s.ownerReferences = .list items

/-- A record is read if its sections are, and the rest is taken as it is. -/
theorem ofWire_eq_ok_iff {w : WireSecret} {s : Secret} :
    ofWire w = .ok s ↔ ∃ data finalizers labels owners,
      w.data.dataSection = .ok data ∧ w.metadata.finalizers.listSection = .ok finalizers ∧
      w.metadata.labels.fieldSection = .ok labels ∧
      w.metadata.ownerReferences.listSection = .ok owners ∧
      s = { name := w.metadata.name, space := w.metadata.space, data := some data,
            annotations := w.metadata.annotations.annotationSection,
            finalizers := .list finalizers, labels := .object labels, type := w.type,
            resourceVersion := w.metadata.resourceVersion, uid := w.metadata.uid,
            ownerReferences := .list owners } := by
  unfold ofWire
  cases w.data.dataSection with
  | error m => simp [bind, Except.bind]
  | ok data =>
    cases w.metadata.finalizers.listSection with
    | error m => simp [bind, Except.bind]
    | ok finalizers =>
      cases w.metadata.labels.fieldSection with
      | error m => simp [bind, Except.bind]
      | ok labels =>
        cases w.metadata.ownerReferences.listSection with
        | error m => simp [bind, Except.bind]
        | ok owners => simp [bind, Except.bind, pure, Except.pure, eq_comm]

theorem isRead_of_ofWire {w : WireSecret} {s : Secret} (h : ofWire w = .ok s) : s.IsRead := by
  obtain ⟨data, finalizers, labels, owners, -, -, -, -, rfl⟩ := ofWire_eq_ok_iff.1 h
  exact ⟨⟨_, rfl⟩, ⟨_, rfl⟩, ⟨_, rfl⟩, ⟨_, rfl⟩⟩

theorem isRead_of_mirror {source s : Secret} {name : Value}
    (h : source.mirror name = .ok s) : s.IsRead := by
  obtain ⟨data, -, rfl⟩ := mirror_eq_ok_iff.1 h
  exact ⟨⟨_, rfl⟩, ⟨_, rfl⟩, ⟨_, rfl⟩, ⟨_, rfl⟩⟩

theorem IsRead.withData {s : Secret} (h : s.IsRead) (data : Data) :
    { s with data := some data }.IsRead :=
  ⟨⟨_, rfl⟩, h.finalizers, h.labels, h.ownerReferences⟩

theorem ofWire_withVersion (w : WireSecret) (version : Value) :
    ofWire (w.withVersion version) =
      (ofWire w).map fun s => { s with resourceVersion := version } := by
  unfold ofWire WireSecret.withVersion
  cases w.data.dataSection with
  | error m => rfl
  | ok data =>
    cases w.metadata.finalizers.listSection with
    | error m => rfl
    | ok finalizers =>
      cases w.metadata.labels.fieldSection with
      | error m => rfl
      | ok labels =>
        cases w.metadata.ownerReferences.listSection with
        | error m => rfl
        | ok owners => rfl

/-! ## There and back -/

/-- The record of a secret whose sections have the shapes that reading gives them. -/
theorem toWire_of_isRead {s : Secret} {data : Data} {finalizers owners : List Value}
    {labels : Fields Value} (hdata : s.data = some data) (hfin : s.finalizers = .list finalizers)
    (hlab : s.labels = .object labels) (hown : s.ownerReferences = .list owners) :
    s.toWire = .ok {
      apiVersion := .text "v1"
      kind := .text "Secret"
      metadata := {
        name := s.name, space := s.space, annotations := wireAnnotations s.annotations
        finalizers := wireList finalizers, labels := wireFields labels
        resourceVersion := s.resourceVersion, uid := s.uid, ownerReferences := wireList owners }
      type := s.type
      data := wireData data } := by
  unfold toWire
  rw [hdata, hfin, hlab, hown]
  rfl

/-- A record is made if the sections can be listed, and the rest is sent as it is. -/
theorem toWire_eq_ok_iff {s : Secret} {body : WireSecret} :
    s.toWire = .ok body ↔ ∃ data finalizers labels owners,
      s.data = some data ∧ s.finalizers.items = .ok finalizers ∧
      s.labels.toFields = .ok labels ∧ s.ownerReferences.items = .ok owners ∧
      body = {
        apiVersion := .text "v1"
        kind := .text "Secret"
        metadata := {
          name := s.name, space := s.space, annotations := wireAnnotations s.annotations
          finalizers := wireList finalizers, labels := wireFields labels
          resourceVersion := s.resourceVersion, uid := s.uid, ownerReferences := wireList owners }
        type := s.type
        data := wireData data } := by
  unfold toWire
  cases s.finalizers.items with
  | error reason => simp [bind, Except.bind]
  | ok finalizers =>
    cases s.labels.toFields with
    | error reason => simp [bind, Except.bind]
    | ok labels =>
      cases s.ownerReferences.items with
      | error reason => simp [bind, Except.bind]
      | ok owners =>
        cases s.data with
        | none => simp [bind, Except.bind]
        | some data => simp [bind, Except.bind, pure, Except.pure, eq_comm]

/-- What is sent is about the secret itself and has its data. -/
theorem of_toWire {s : Secret} {body : WireSecret} (h : s.toWire = .ok body) :
    body.metadata.name = s.name ∧ body.metadata.space = s.space ∧
      ∃ data, s.data = some data ∧ body.data = wireData data := by
  obtain ⟨data, _, _, _, hdata, -, -, -, rfl⟩ := toWire_eq_ok_iff.1 h
  exact ⟨rfl, rfl, data, hdata, rfl⟩

theorem wireAnnotations_eq (v : Value) :
    wireAnnotations v = .null ∨ ∃ fields, wireAnnotations v = .object fields := by
  cases v with
  | object fields =>
    cases fields with
    | nil => exact .inl rfl
    | cons e rest => exact .inr ⟨e :: rest, rfl⟩
  | _ => exact .inl rfl

/-- A secret that was read has a record, and the record reads as the same secret but for annotations
that are no plain object. -/
theorem ofWire_toWire {s : Secret} (h : s.IsRead) :
    ∃ w, s.toWire = .ok w ∧ ofWire w = .ok { s with annotations := s.annotations.plain } := by
  obtain ⟨⟨data, hdata⟩, ⟨finalizers, hfin⟩, ⟨labels, hlab⟩, ⟨owners, hown⟩⟩ := h
  refine ⟨_, toWire_of_isRead hdata hfin hlab hown, ?_⟩
  rw [ofWire_eq_ok_iff]
  refine ⟨data, finalizers, labels, owners, by simp, by simp, by simp, by simp, ?_⟩
  obtain ⟨name, space, _, annotations, _, _, type, version, uid, _⟩ := s
  simp only at hdata hfin hlab hown
  simp [hdata, hfin, hlab, hown]

end Secret

/-- The body has the data of the secret. -/
def WireSecret.Carries (body : WireSecret) (s : Secret) : Prop :=
  ∃ data, s.data = some data ∧ body.data.dataSection = .ok data

theorem carries_of_toWire {s secret : Secret} {body : WireSecret} (hdata : secret.data = s.data)
    (hbody : secret.toWire = .ok body) : body.Carries s := by
  obtain ⟨-, -, data, hsecret, hwire⟩ := Secret.of_toWire hbody
  refine ⟨data, ?_, ?_⟩
  · rw [← hdata]
    exact hsecret
  · rw [hwire]
    exact Value.dataSection_wireData data

/-! ## An example -/

namespace Example

/-- A canonical secret as it is stored. -/
def canonical : WireSecret where
  metadata := {
    name := .text Names.source
    space := .text Names.configNamespace
    resourceVersion := .text "1" }
  data := .object [("key", .text "AQ==")]

/-- The canonical secret as it is read. -/
def source : Secret where
  name := .text Names.source
  space := .text Names.configNamespace
  data := some [("key", [1])]
  resourceVersion := .text "1"

theorem ofWire_canonical : Secret.ofWire canonical = .ok source := rfl

end Example

/-! ## Watch events -/

/-- The body of a watch event is an object with metadata that shows a stored record. -/
structure Value.Shows (body : Value) (w : WireSecret) : Prop where
  fields : ∃ fields about, body.fields? = some fields ∧
    (Secret.entry fields "metadata").fields? = some about
  metadata : (WireSecret.ofValue body).metadata = w.metadata
  type : (WireSecret.ofValue body).type = w.type
  data : (WireSecret.ofValue body).data = w.data

theorem WireSecret.shows_toValue (w : WireSecret) : w.toValue.Shows w where
  fields := ⟨_, _, rfl, rfl⟩
  metadata := rfl
  type := rfl
  data := rfl

/-- An object with metadata is read like the record that holds the same values. -/
theorem Secret.ofBody_eq_ofWire {body : Value} {fields about : Fields Value}
    (hbody : body.fields? = some fields)
    (habout : (Secret.entry fields "metadata").fields? = some about) :
    Secret.ofBody body = Secret.ofWire (WireSecret.ofValue body) := by
  have hmeta : (fields.get? "metadata").getD (.object []) = Secret.entry fields "metadata" := by
    unfold Secret.entry at habout ⊢
    cases hget : fields.get? "metadata" with
    | none => simp [hget, Value.fields?] at habout
    | some v => rfl
  simp only [Secret.ofBody, Secret.ofWire, WireSecret.ofValue, Value.fieldsFor, hbody, bind,
    Except.bind, hmeta, habout, Option.getD_some]

theorem Secret.ofBody_of_shows {body : Value} {w : WireSecret} (h : body.Shows w) :
    Secret.ofBody body = Secret.ofWire w := by
  obtain ⟨fields, about, hbody, habout⟩ := h.fields
  rw [Secret.ofBody_eq_ofWire hbody habout]
  unfold Secret.ofWire
  rw [h.metadata, h.type, h.data]

end SecretMirror
