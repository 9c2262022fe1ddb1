import SecretMirror.Operator.Access
import SecretMirror.Proofs.Bookkeeping
import SecretMirror.Proofs.Deciding
import SecretMirror.Proofs.ExactTime
import SecretMirror.Proofs.Wire.RoundTrip

/-!
# The marker on the wire

A mirror is this operator's by a marker among its annotations.  The marker is seen on a plain object
and on a view of one, but only a plain object is sent.  So the record that an update sends in place
of a marked mirror keeps the annotations and the marker (`WireSecret.KeepsMarker`) just if the
annotations are a plain object (`update_keeps_marker_iff`); sent from a view, the mirror is marked
no longer, and it counts as someone else's from then on.
-/

namespace SecretMirror

variable {τ : Type} [Time τ]

/-- The value is a plain object, which is what `to_k8s` takes for annotations; a view of one is
not. -/
def Value.IsPlain (v : Value) : Prop := ∃ fields, v = .object fields

/-- The record has the same fields as these annotations, and reads as a marked secret. -/
structure WireSecret.KeepsMarker (body : WireSecret) (annotations : Value) : Prop where
  fields : body.metadata.annotations.fields? = annotations.fields?
  marked : ∃ stored, Secret.ofWire body = .ok stored ∧ stored.isManaged = true

/-- If the request replaces a secret, it does so by a record of this kind. -/
def Operator.Request.ReplacesBy (P : WireSecret → Prop) : Operator.Request τ → Prop
  | .replace _ _ body => P body
  | _ => True

namespace Secret

variable {s t : Secret} {body : WireSecret}

theorem exists_fields_of_isManaged (h : t.isManaged = true) :
    ∃ field rest, t.annotations.fields? = some (field :: rest) := by
  unfold isManaged at h
  cases hfields : t.annotations.fields? with
  | none => simp [hfields] at h
  | some fields =>
    cases fields with
    | nil => simp [hfields] at h
    | cons field rest => exact ⟨field, rest, rfl⟩

theorem isManaged_congr (h : s.annotations.fields? = t.annotations.fields?) :
    s.isManaged = t.isManaged := by
  unfold isManaged
  rw [h]

theorem isManaged_of_void (h : t.annotations = .object []) : t.isManaged = false := by
  unfold isManaged
  rw [h]
  rfl

/-- Whatever is sent can be read, and its annotations read as what is plain of them. -/
theorem ofWire_of_toWire (h : s.toWire = .ok body) :
    body.metadata.annotations = wireAnnotations s.annotations ∧
      ∃ stored, ofWire body = .ok stored ∧ stored.annotations = s.annotations.plain := by
  obtain ⟨data, finalizers, labels, owners, -, -, -, -, rfl⟩ := toWire_eq_ok_iff.1 h
  refine ⟨rfl, _, ofWire_eq_ok_iff.2
    ⟨data, finalizers, labels, owners, by simp, by simp, by simp, by simp, rfl⟩, ?_⟩
  exact Value.annotationSection_wireAnnotations s.annotations

/-- What is sent in place of a marked secret keeps the marker just if the annotations are plain. -/
theorem keepsMarker_iff (hmarker : t.isManaged = true) (h : t.toWire = .ok body) :
    body.KeepsMarker t.annotations ↔ t.annotations.IsPlain := by
  obtain ⟨hsent, stored, hread, hstored⟩ := ofWire_of_toWire h
  obtain ⟨field, rest, hfields⟩ := exists_fields_of_isManaged hmarker
  constructor
  · rintro ⟨hkept, -⟩
    rw [hsent, hfields] at hkept
    cases hann : t.annotations with
    | object fields => exact ⟨fields, rfl⟩
    | _ => simp [hann, wireAnnotations, Value.fields?] at hkept
  · rintro ⟨fields, hplain⟩
    obtain rfl : fields = field :: rest := by
      rw [hplain] at hfields
      exact Option.some.inj hfields
    refine ⟨?_, stored, hread, ?_⟩
    · rw [hsent, hplain]
      rfl
    · have hsame : stored.annotations.fields? = t.annotations.fields? := by
        rw [hstored, hplain]
        rfl
      rw [isManaged_congr hsame]
      exact hmarker

/-- The marker is lost with the annotations when these are not plain. -/
theorem isManaged_of_not_isPlain {stored : Secret} (h : t.toWire = .ok body)
    (hplain : ¬ t.annotations.IsPlain) (hread : ofWire body = .ok stored) :
    stored.isManaged = false := by
  obtain ⟨-, stored', hread', hstored⟩ := ofWire_of_toWire h
  cases Except.ok.inj (hread.symm.trans hread')
  refine isManaged_of_void (hstored.trans ?_)
  cases hann : t.annotations with
  | object fields => exact absurd ⟨fields, hann⟩ hplain
  | _ => rfl

/-! ## Updates -/

theorem asksOnly_update_sends (rate : τ) (u : Secret) :
    (Operator.update rate u).AsksOnly (Operator.Request.ReplacesBy fun body =>
      u.toWire = .ok body) := by
  refine Operator.asksOnly_update ?_ ?_ ?_ ?_ rate u fun _ hbody => hbody
  · intro q hq
    cases q <;> first | exact trivial | exact hq.elim
  · exact fun _ => trivial
  · exact fun _ => trivial
  · intro q hq
    cases q <;> first | exact trivial | exact hq.elim

/-- What is decided about a marked mirror with other data than its source is to update it, and what
the update sends keeps the marker just if the mirror's annotations are a plain object; if they are
not, it reads as a secret without the marker. -/
theorem update_keeps_marker_iff (name : Value) (hmarker : t.isManaged = true)
    (hdiffers : Data.equal t.data s.data = false) (rate : τ) :
    (∀ data, s.data = some data → ∃ d, decide (some s) (some t) name = .ok d) ∧
    (t.IsRead → ∀ data, ∃ body, { t with data := some data }.toWire = .ok body) ∧
    ∀ d, decide (some s) (some t) name = .ok d → ∃ u, d = .update u ∧ u.data = s.data ∧
      (Operator.update rate u).AsksOnly (Operator.Request.ReplacesBy fun body =>
        u.toWire = .ok body ∧ (body.KeepsMarker t.annotations ↔ t.annotations.IsPlain) ∧
          (¬ t.annotations.IsPlain →
            ∃ stored, ofWire body = .ok stored ∧ stored.isManaged = false)) := by
  refine ⟨fun data hdata => ⟨_, decide_eq_ok_iff.2 (.update hmarker hdiffers hdata)⟩,
    fun hread data => ?_, fun d hd => ?_⟩
  · obtain ⟨body, hbody, -⟩ := ofWire_toWire (hread.withData data)
    exact ⟨body, hbody⟩
  cases decides_of_decide hd with
  | foreign _ hnone => simp [hmarker] at hnone
  | inSync _ hequal => simp [hdiffers] at hequal
  | @update _ _ data _ _ hdata =>
    refine ⟨_, rfl, hdata.symm, (asksOnly_update_sends rate _).imp ?_⟩
    intro q hq
    cases q with
    | replace _ _ body =>
      have hbody : { t with data := some data }.toWire = .ok body := hq
      have hkeeps : body.KeepsMarker t.annotations ↔ t.annotations.IsPlain :=
        keepsMarker_iff (t := { t with data := some data }) hmarker hbody
      obtain ⟨-, stored, hread, -⟩ := ofWire_of_toWire hbody
      exact ⟨hbody, hkeeps, fun hplain =>
        ⟨stored, hread, isManaged_of_not_isPlain hbody hplain hread⟩⟩
    | _ => exact trivial

/-! ## Examples -/

namespace Example

/-- A mirror with these annotations. -/
def annotated (annotations : Value) : Secret where
  name := .text Names.target
  space := .text Names.configNamespace
  annotations := annotations
  resourceVersion := .text "2"

/-- The marker and nothing else. -/
def marker : Fields Value := [(Names.managedBy, .text Names.manager)]

end Example

/-- An update keeps the marker on plain annotations and takes it from a view. -/
theorem update_keeps_marker_plain_or_view :
    (∃ u, decide (some Example.source) (some (Example.annotated (.object Example.marker)))
        (.text Names.target) = .ok (.update u) ∧
      (Operator.update (8 : ℚ) u).AsksOnly (Operator.Request.ReplacesBy fun body =>
        body.KeepsMarker (.object Example.marker))) ∧
    ∃ u, decide (some Example.source) (some (Example.annotated (.view Example.marker)))
        (.text Names.target) = .ok (.update u) ∧
      (Operator.update (8 : ℚ) u).AsksOnly (Operator.Request.ReplacesBy fun body =>
        ∃ stored, ofWire body = .ok stored ∧ stored.isManaged = false) := by
  have hplain := update_keeps_marker_iff (s := Example.source)
    (t := Example.annotated (.object Example.marker)) (.text Names.target) rfl rfl (8 : ℚ)
  have hview := update_keeps_marker_iff (s := Example.source)
    (t := Example.annotated (.view Example.marker)) (.text Names.target) rfl rfl (8 : ℚ)
  obtain ⟨d, hd⟩ := hplain.1 _ rfl
  obtain ⟨d', hd'⟩ := hview.1 _ rfl
  obtain ⟨u, rfl, -, hu⟩ := hplain.2.2 d hd
  obtain ⟨u', rfl, -, hu'⟩ := hview.2.2 d' hd'
  refine ⟨⟨u, hd, hu.imp fun q hq => ?_⟩, u', hd', hu'.imp fun q hq => ?_⟩
  · cases q with
    | replace _ _ body => exact hq.2.1.2 ⟨_, rfl⟩
    | _ => exact trivial
  · cases q with
    | replace _ _ body => exact hq.2.2 fun ⟨fields, hfields⟩ => nomatch hfields
    | _ => exact trivial

/-- The mirror that is sent from a view has lost the marker. -/
theorem not_update_keeps_marker :
    ¬ ∀ (s t u : Secret) (body : WireSecret), t.isManaged = true →
      Data.equal t.data s.data = false →
      decide (some s) (some t) (.text Names.target) = .ok (.update u) → u.toWire = .ok body →
      body.KeepsMarker t.annotations := by
  intro h
  have hkept := h Example.source (Example.annotated (.view Example.marker)) _ _
    rfl rfl rfl rfl
  have hfields := hkept.fields
  simp [Example.annotated, Value.fields?, wireAnnotations] at hfields

end Secret

end SecretMirror
