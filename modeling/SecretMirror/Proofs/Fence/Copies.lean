import SecretMirror.Proofs.Deciding
import SecretMirror.Proofs.SharedCluster

/-!
# Copies of stored secrets

The operator decides on copies, which may be arbitrarily old.  A copy is `Genuine` if some stored
version reads as it.  A body is `Fenced` if it carries the version of a stored record that bears the
operator's marker, and agrees with that record beside the data; what is sent in place of a genuine
copy with the marker is fenced (`fenced_of_managed`).

`decisions` is the contract between a synchronisation and its collaborators: given genuine copies,
it asks for an update only with new data for a genuine copy that bears the marker
(`sync_keeps_decisions`).
-/

namespace SecretMirror

open Interleaving
open Program hiding bind

/-! ## Marks and agreement -/

/-- The record bears the marker of the operator.  This looks at the record itself and not at the
copy that the operator has of it. -/
def WireSecret.BearsMarker (w : WireSecret) : Prop :=
  ∃ fields : Fields Value, w.metadata.annotations = .object fields ∧
    fields.get? Names.managedBy = some (.text Names.manager)

/-- A section is as it was, or null if it was empty. -/
def Value.IsKeptAs (old new : Value) : Prop :=
  new = old ∨ (old = .object [] ∨ old = .list []) ∧ new = .null

/-- Two records agree in everything but data and version.  A section of labels, finalizers or owners
that is empty may have become null, since an empty one is sent as null. -/
structure WireSecret.AgreesBesideData (old new : WireSecret) : Prop where
  name : new.metadata.name = old.metadata.name
  space : new.metadata.space = old.metadata.space
  annotations : new.metadata.annotations = old.metadata.annotations
  labels : old.metadata.labels.IsKeptAs new.metadata.labels
  finalizers : old.metadata.finalizers.IsKeptAs new.metadata.finalizers
  type : new.type = old.type
  uid : new.metadata.uid = old.metadata.uid
  ownerReferences : old.metadata.ownerReferences.IsKeptAs new.metadata.ownerReferences

theorem Value.isKeptAs_wireFields {v : Value} {fields : Fields Value}
    (hv : v = .null ∨ ∃ fields, v = .object fields) (h : v.fieldSection = .ok fields) :
    v.IsKeptAs (Secret.wireFields fields) := by
  rcases hv with rfl | ⟨_ | ⟨e, rest⟩, rfl⟩
  · cases h
    exact .inl rfl
  · cases h
    exact .inr ⟨.inl rfl, rfl⟩
  · cases h
    exact .inl rfl

theorem Value.isKeptAs_wireList {v : Value} {items : List Value}
    (hv : v = .null ∨ ∃ items, v = .list items) (h : v.listSection = .ok items) :
    v.IsKeptAs (Secret.wireList items) := by
  rcases hv with rfl | ⟨_ | ⟨x, rest⟩, rfl⟩
  · cases h
    exact .inl rfl
  · cases h
    exact .inr ⟨.inr rfl, rfl⟩
  · cases h
    exact .inl rfl

namespace Fence

/-- The copy is what some stored version reads as.  It may be arbitrarily old. -/
def Genuine (versions : Set WireSecret) (s : Secret) : Prop :=
  ∃ w ∈ versions, w.IsSound ∧ Secret.ofWire w = .ok s

/-- The body may replace only a stored version that bears the marker: it carries that version, and
agrees with the record beside the data. -/
def Fenced (versions : Set WireSecret) (body : WireSecret) : Prop :=
  ∃ w ∈ versions, w.BearsMarker ∧ w.AgreesBesideData body ∧
    body.metadata.resourceVersion = w.metadata.resourceVersion

theorem Genuine.mono {versions later : Set WireSecret} (h : versions ⊆ later) {s : Secret}
    (hs : Genuine versions s) : Genuine later s := by
  obtain ⟨w, hw, hsound, hread⟩ := hs
  exact ⟨w, h hw, hsound, hread⟩

/-- The marker on a copy was on the record. -/
theorem bearsMarker_of_isManaged {w : WireSecret} {s : Secret} (hsound : w.IsSound)
    (hread : Secret.ofWire w = .ok s) (hmarker : s.isManaged = true) : w.BearsMarker := by
  obtain ⟨_, _, _, _, -, -, -, -, rfl⟩ := Secret.ofWire_eq_ok_iff.1 hread
  rcases hsound.annotations with hnull | ⟨fields, hfields⟩
  · simp [Secret.isManaged, hnull, Value.annotationSection, Value.fields?] at hmarker
  · refine ⟨fields, hfields, ?_⟩
    simp only [Secret.isManaged, hfields, Value.annotationSection, Value.fields?,
      beq_iff_eq, Option.bind_eq_some_iff] at hmarker
    obtain ⟨v, hv, htext⟩ := hmarker
    cases v with
    | text t =>
      simp only [Value.text?, Option.some.injEq] at htext
      rw [hv, htext]
    | _ => simp [Value.text?] at htext

/-- What is sent in place of a genuine copy with the marker is fenced, whatever its new data. -/
theorem fenced_of_managed {versions : Set WireSecret} {s : Secret} (hs : Genuine versions s)
    (hmarker : s.isManaged = true) (data : Data) {body : WireSecret}
    (hbody : { s with data := some data }.toWire = .ok body) : Fenced versions body := by
  obtain ⟨w, hw, hsound, hread⟩ := hs
  have hbears := bearsMarker_of_isManaged hsound hread hmarker
  obtain ⟨fields, hfields, hget⟩ := id hbears
  obtain ⟨old, finalizers, labels, owners, -, hfin, hlab, hown, rfl⟩ :=
    Secret.ofWire_eq_ok_iff.1 hread
  rw [Secret.toWire_of_isRead rfl rfl rfl rfl] at hbody
  have hann : Secret.wireAnnotations w.metadata.annotations.annotationSection =
      w.metadata.annotations := by
    -- The marker is among them, so they are not empty and not null on the wire.
    rw [hfields]
    cases fields with
    | nil => simp at hget
    | cons e rest => rfl
  rw [← Except.ok.inj hbody]
  refine ⟨w, hw, hbears, ?_, rfl⟩
  exact {
    name := rfl
    space := rfl
    annotations := hann
    labels := Value.isKeptAs_wireFields hsound.labels hlab
    finalizers := Value.isKeptAs_wireList hsound.finalizers hfin
    type := rfl
    uid := rfl
    ownerReferences := Value.isKeptAs_wireList hsound.ownerReferences hown }

/-! ## The contract of the synchronisation -/

/-- What a synchronisation may ask its collaborators, and what it may expect of them.  It asks for
an update only with new data for a genuine copy that bears the marker. -/
def decisions (τ : Type) : Contract Sync.collaborators (Fault τ) (Set WireSecret) where
  permits versions
    | .update secret => ∃ old data, Genuine versions old ∧ old.isManaged = true ∧
      secret = { old with data := some data }
    | _ => True
  expects versions
    | .lookUp .., a => ∀ s, a = .ok (some s) → Genuine versions s
    | _, _ => True

variable {τ : Type}

theorem keeps_lookUp (space name : Value) (k : Set WireSecret) :
    (Sync.lookUp (τ := τ) space name).Keeps (decisions τ)
      (fun l found => ∀ s, found = some s → Genuine l s) k := by
  refine keeps_request (fun _ _ => trivial) fun l _ a ha l' hl' s hs => ?_
  exact (ha s (congrArg Except.ok hs)).mono hl'

theorem sync_keeps_decisions (places : Sync.Places) (k : Set WireSecret) :
    (Sync.sync (τ := τ) places).Behaves (decisions τ) k := by
  unfold Sync.sync
  refine keeps_bind (keeps_lookUp _ _ k) fun l _ source hsource => ?_
  cases source with
  | none => exact keeps_ofExcept fun _ _ _ _ => trivial
  | some source =>
    refine keeps_bind (keeps_lookUp _ _ l) fun l₁ _ target htarget => ?_
    have hdecided : (Sync.decided (τ := τ) (some source) target places.target).Keeps (decisions τ)
        (fun _ d => decide (some source) target places.target = .ok d) l₁ := by
      refine keeps_ofExcept fun d hd _ _ => ?_
      cases h : decide (some source) target places.target with
      | error m => simp [h, Except.mapError] at hd
      | ok d' => simpa [h, Except.mapError] using hd
    refine keeps_bind hdecided fun l₂ hl₂ d hd => ?_
    refine behaves_bind ?_ fun _ _ _ => keeps_pure fun _ _ => trivial
    cases d with
    | noOp why => exact keeps_pure fun _ _ => trivial
    | create secret =>
      refine behaves_bind (behaves_request fun _ _ => trivial) fun _ _ _ => ?_
      exact behaves_request fun _ _ => trivial
    | update secret =>
      refine behaves_bind (behaves_request fun l₃ hl₃ => ?_) fun _ _ _ => ?_
      · cases decides_of_decide hd with
        | update hmarker _ _ =>
          exact ⟨_, _, (htarget _ rfl).mono (le_trans hl₂ hl₃), hmarker, rfl⟩
      · exact behaves_request fun _ _ => trivial

end Fence

end SecretMirror
