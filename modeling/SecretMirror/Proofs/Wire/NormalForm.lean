import SecretMirror.Proofs.Wire.RoundTrip

/-!
# Records in normal form

To rewrite a record (`WireSecret.rewritten`) is to read it and to make a record of what was read.
What comes out is in normal form (`WireSecret.IsNormal`): it says what it is a record of, its
sections are null or hold something, and its data is canonical base64.  The records that rewriting
leaves as they are are those in normal form (`rewritten_eq_self_iff`), so one rewriting is as good
as two.

What a watch event reads as, some record reads as too (`exists_record_of_ofBody`).  So a secret that
came in by an event goes out to the wire and comes back as it was, but for annotations that are no
plain object (`reads_back_and_settles`).
-/

namespace SecretMirror

namespace WireSecret

/-- The record that is made of what a record reads as. -/
def rewritten (w : WireSecret) : Except Malformed WireSecret := do
  let secret ← Secret.ofWire w
  secret.toWire

/-- The record says what it is a record of, no section is empty without being null, and every datum
is canonical base64 text. -/
structure IsNormal (w : WireSecret) : Prop where
  apiVersion : w.apiVersion = .text "v1"
  kind : w.kind = .text "Secret"
  annotations : ∃ fields, w.metadata.annotations = Secret.wireFields fields
  finalizers : ∃ items, w.metadata.finalizers = Secret.wireList items
  labels : ∃ fields, w.metadata.labels = Secret.wireFields fields
  ownerReferences : ∃ items, w.metadata.ownerReferences = Secret.wireList items
  data : ∃ data, w.data = Secret.wireData data

variable {w w' : WireSecret}

theorem rewritten_eq_ok_iff :
    w.rewritten = .ok w' ↔ ∃ s, Secret.ofWire w = .ok s ∧ s.toWire = .ok w' := by
  unfold rewritten
  cases Secret.ofWire w with
  | error reason => simp [bind, Except.bind]
  | ok s => simp [bind, Except.bind]

/-! ## What rewriting leaves -/

theorem exists_wireFields (annotations : Value) :
    ∃ fields, Secret.wireAnnotations annotations = Secret.wireFields fields := by
  cases annotations with
  | object fields => exact ⟨fields, rfl⟩
  | _ => exact ⟨[], rfl⟩

/-- Whatever can be read is rewritten, and in normal form then. -/
theorem exists_rewritten {s : Secret} (h : Secret.ofWire w = .ok s) :
    ∃ w', w.rewritten = .ok w' ∧ w'.IsNormal := by
  obtain ⟨⟨data, hdata⟩, ⟨finalizers, hfin⟩, ⟨labels, hlab⟩, ⟨owners, hown⟩⟩ :=
    Secret.isRead_of_ofWire h
  refine ⟨_, rewritten_eq_ok_iff.2 ⟨s, h, Secret.toWire_of_isRead hdata hfin hlab hown⟩, ?_⟩
  exact ⟨rfl, rfl, exists_wireFields s.annotations, ⟨finalizers, rfl⟩, ⟨labels, rfl⟩,
    ⟨owners, rfl⟩, ⟨data, rfl⟩⟩

theorem isNormal_of_rewritten (h : w.rewritten = .ok w') : w'.IsNormal := by
  obtain ⟨s, hread, -⟩ := rewritten_eq_ok_iff.1 h
  obtain ⟨w'', hw'', hnormal⟩ := exists_rewritten hread
  rw [h, Except.ok.injEq] at hw''
  rw [hw'']
  exact hnormal

theorem rewritten_of_isNormal (h : w.IsNormal) : w.rewritten = .ok w := by
  obtain ⟨hversion, hkind, ⟨annotations, hann⟩, ⟨finalizers, hfin⟩, ⟨labels, hlab⟩,
    ⟨owners, hown⟩, ⟨data, hdata⟩⟩ := h
  obtain ⟨version, kind, ⟨name, space, _, _, _, resourceVersion, uid, _⟩, type, _⟩ := w
  simp only at hversion hkind hann hfin hlab hown hdata
  subst hversion hkind hann hfin hlab hown hdata
  have hsent : Secret.wireAnnotations (Secret.wireFields annotations).annotationSection =
      Secret.wireFields annotations := by
    cases annotations with
    | nil => rfl
    | cons e rest => rfl
  refine rewritten_eq_ok_iff.2 ⟨_, Secret.ofWire_eq_ok_iff.2
    ⟨data, finalizers, labels, owners, by simp, by simp, by simp, by simp, rfl⟩, ?_⟩
  rw [Secret.toWire_of_isRead rfl rfl rfl rfl, hsent]

/-- Rewriting leaves a record as it is just if it is in normal form. -/
theorem rewritten_eq_self_iff : w.rewritten = .ok w ↔ w.IsNormal :=
  ⟨isNormal_of_rewritten, rewritten_of_isNormal⟩

end WireSecret

namespace Secret

/-! ## What comes in by a watch event -/

/-- What a body reads as, some record reads as. -/
theorem exists_record_of_ofBody {body : Value} {s : Secret} (h : ofBody body = .ok s) :
    ∃ w, ofWire w = .ok s := by
  unfold ofBody at h
  cases hfields : body.fieldsFor "get" with
  | error reason => simp [hfields, bind, Except.bind] at h
  | ok fields =>
    cases habout : ((fields.get? "metadata").getD (.object [])).fieldsFor "get" with
    | error reason => simp [hfields, habout, bind, Except.bind] at h
    | ok about =>
      rw [hfields] at h
      simp only [bind, Except.bind, habout] at h
      exact ⟨{
        metadata := {
          name := entry about "name"
          space := entry about "namespace"
          annotations := entry about "annotations"
          finalizers := entry about "finalizers"
          labels := entry about "labels"
          resourceVersion := entry about "resourceVersion"
          uid := entry about "uid"
          ownerReferences := entry about "ownerReferences" }
        type := entry fields "type"
        data := entry fields "data" }, h⟩

/-- A secret that came in by a watch event goes out and comes back as it was, but for annotations
that are no plain object; whatever bytes a secret holds, they are told by the data section that is
made of them; and a record that can be read is in normal form after one rewriting, which any further
rewriting leaves as it is. -/
theorem reads_back_and_settles :
    (∀ (body : Value) (s : Secret), ofBody body = .ok s →
      ∃ w, s.toWire = .ok w ∧ ofWire w = .ok { s with annotations := s.annotations.plain }) ∧
    (∀ data : Data, (wireData data).dataSection = .ok data) ∧
    ∀ (w : WireSecret) (s : Secret), ofWire w = .ok s →
      ∃ w', w.rewritten = .ok w' ∧ w'.IsNormal ∧ w'.rewritten = .ok w' := by
  refine ⟨fun body s hbody => ?_, fun data => Value.dataSection_wireData data,
    fun w s hread => ?_⟩
  · obtain ⟨w, hread⟩ := exists_record_of_ofBody hbody
    exact ofWire_toWire (isRead_of_ofWire hread)
  · obtain ⟨w', hrewritten, hnormal⟩ := WireSecret.exists_rewritten hread
    exact ⟨w', hrewritten, hnormal, WireSecret.rewritten_of_isNormal hnormal⟩

/-! ## An example -/

namespace Example

/-- The body of an event with blanks among the base64 characters, annotations that are a view, and a
section that is empty. -/
def loose : Value :=
  .object [
    ("metadata", .object [
      ("name", .text Names.source),
      ("namespace", .text Names.configNamespace),
      ("annotations", .view [(Names.description, .text "keys")]),
      ("finalizers", .list []),
      ("resourceVersion", .text "1")]),
    ("data", .object [("key", .text " A Q = = ")])]

/-- What it reads as. -/
def looseSecret : Secret where
  name := .text Names.source
  space := .text Names.configNamespace
  data := some [("key", [1])]
  annotations := .view [(Names.description, .text "keys")]
  resourceVersion := .text "1"

end Example

/-- The body comes back without its annotations, and the record that holds the same values is in
normal form after one rewriting. -/
theorem reads_back_and_settles_loose :
    (ofBody Example.loose = .ok Example.looseSecret ∧ ∃ w, Example.looseSecret.toWire = .ok w ∧
      ofWire w = .ok { Example.looseSecret with annotations := .object [] }) ∧
    ofWire (WireSecret.ofValue Example.loose) = .ok Example.looseSecret ∧
      ∃ w', (WireSecret.ofValue Example.loose).rewritten = .ok w' ∧ w'.IsNormal ∧
        w'.rewritten = .ok w' := by
  have hbody : ofBody Example.loose = .ok Example.looseSecret := rfl
  have hread : ofWire (WireSecret.ofValue Example.loose) = .ok Example.looseSecret := rfl
  exact ⟨⟨hbody, reads_back_and_settles.1 _ _ hbody⟩, hread,
    reads_back_and_settles.2.2 _ _ hread⟩

end Secret

end SecretMirror
