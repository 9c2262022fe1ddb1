import SecretMirror.Proofs.Deciding

/-!
# What a decision looks at and what it leaves alone

Of a canonical secret the decision looks at the namespace, the description, and the bytes that the
data binds to each name; of the mirror it looks at the marker and the data.  Sources that are alike
in this (`Secret.Resembles`) and mirrors that differ at most in the order of their data
(`Secret.Reordered`) get decisions that differ at most in that order (`Decision.Matches`).

What is to be written carries the marker and the data of the source (`Decides.settled`), so if it
were the mirror nothing would be left to do; and an update has everything else from the mirror.
-/

namespace SecretMirror

/-! ## Data, whatever its order -/

/-- The bytes that the data of a secret binds to a name; none if there is no data section. -/
def Secret.datum? (s : Secret) (name : String) : Option Bytes :=
  s.data.bind fun data => Fields.get? data name

theorem Secret.datum?_eq (s : Secret) (name : String) :
    s.datum? name = Fields.get? (s.data.getD []) name := by
  unfold datum?
  cases s.data with
  | none => rfl
  | some data => rfl

/-- Data sections are equal if they bind the same bytes to every name. -/
theorem Secret.equal_iff {s t : Secret} :
    Data.equal s.data t.data = true ↔ ∀ name, s.datum? name = t.datum? name := by
  rw [Data.equal, Fields.agree_iff]
  simp only [datum?_eq]

/-- Data sections differ if a name is missing in one of them or bound to different bytes. -/
theorem Secret.not_equal_iff {s t : Secret} :
    Data.equal s.data t.data = false ↔ ∃ name, s.datum? name ≠ t.datum? name := by
  rw [← Bool.not_eq_true, equal_iff]
  exact Classical.not_forall

/-! ## Annotations, one by one -/

/-- The annotations of a secret bind a name to a value.  They do so as an object, plain or a view;
annotations of any other shape bind nothing. -/
def Secret.Annotates (s : Secret) (name : String) (v : Value) : Prop :=
  ∃ given, (s.annotations = .object given ∨ s.annotations = .view given) ∧
    Fields.get? given name = some v

theorem Value.fields?_eq_some_iff {v : Value} {fields : Fields Value} :
    v.fields? = some fields ↔ v = .object fields ∨ v = .view fields := by
  cases v <;> simp [Value.fields?]

/-- A secret is the operator's if its annotations say that the operator manages it. -/
theorem Secret.isManaged_iff {s : Secret} :
    s.isManaged = true ↔ s.Annotates Names.managedBy (.text Names.manager) := by
  have htext : ∀ v : Value, v.text? = some Names.manager ↔ v = .text Names.manager := by
    intro v
    cases v <;> simp [Value.text?]
  unfold isManaged Annotates
  simp only [← Value.fields?_eq_some_iff]
  cases s.annotations.fields? with
  | none => simp
  | some given => simp [Option.bind_eq_some_iff, htext]

theorem Secret.description?_eq_some_iff {s : Secret} {v : Value} :
    s.description? = some v ↔ s.Annotates Names.description v := by
  unfold description? Annotates
  simp only [← Value.fields?_eq_some_iff, Option.bind_eq_some_iff]

/-- The secrets are equal but for the order in which their data is given. -/
structure Secret.Reordered (s s' : Secret) : Prop where
  rest : s' = { s with data := s'.data }
  hasData : s'.data.isSome = s.data.isSome
  data : ∀ name, s'.datum? name = s.datum? name

/-- The canonical secrets are alike in what the decision looks at.  Labels, other annotations,
versions and the order of the data may differ. -/
structure Secret.Resembles (s s' : Secret) : Prop where
  space : s'.space = s.space
  description : s'.description? = s.description?
  hasData : s'.data.isSome = s.data.isSome
  data : ∀ name, s'.datum? name = s.datum? name

/-- The decisions are the same but for the order of the data that is to be written. -/
inductive Decision.Matches : Decision → Decision → Prop where
  | noOp (why : NoOpReason) : Matches (.noOp why) (.noOp why)
  | create {s s' : Secret} (h : s.Reordered s') : Matches (.create s) (.create s')
  | update {s s' : Secret} (h : s.Reordered s') : Matches (.update s) (.update s')

/-! ## What is to be written -/

namespace Secret

variable {s s' t t' : Secret} {data : Data}

theorem Reordered.isManaged_eq (h : t.Reordered t') : t'.isManaged = t.isManaged := by
  rw [h.rest]
  rfl

theorem equal_congr (ht : ∀ datum, t'.datum? datum = t.datum? datum)
    (hs : ∀ datum, s'.datum? datum = s.datum? datum) :
    Data.equal t'.data s'.data = Data.equal t.data s.data := by
  rw [Bool.eq_iff_iff, equal_iff, equal_iff]
  simp only [ht, hs]

/-- The data of canonical secrets that are alike differ at most in their order. -/
theorem Resembles.exists_data (h : s.Resembles s') (hdata : s.data = some data) :
    ∃ data', s'.data = some data' ∧ ∀ name, Fields.get? data' name = Fields.get? data name := by
  obtain ⟨data', hdata'⟩ : ∃ data', s'.data = some data' := by
    rw [← Option.isSome_iff_exists, h.hasData, hdata]
    rfl
  refine ⟨data', hdata', fun name => ?_⟩
  have hname := h.data name
  simpa [datum?, hdata, hdata'] using hname

end Secret

namespace Decides

variable {source target source' target' : Option Secret} {name : Value} {d : Decision}

/-- What is to be written settles the matter: were it the mirror, nothing would be left to do. -/
theorem settled (h : Decides name source target d) {u : Secret} (hu : d.secret? = some u)
    (other : Value) : Decides other source (some u) (.noOp .inSync) := by
  cases h with
  | sourceAbsent target => cases hu
  | foreign s hmarker => cases hu
  | inSync hmarker hequal => cases hu
  | create hmirror =>
    cases hu
    exact .inSync (Secret.isManaged_of_mirror hmirror)
      (Data.equal_of_copied (Secret.data_of_mirror hmirror))
  | update hmarker hdiffers hdata =>
    cases hu
    exact .inSync hmarker (Data.equal_of_copied hdata.symm)

theorem action_eq_update_iff (h : Decides name source target d) :
    d.action = .update ↔ ∃ s t, source = some s ∧ target = some t ∧ t.isManaged = true ∧
      ∃ datum, t.datum? datum ≠ s.datum? datum := by
  constructor
  · intro hd
    cases h with
    | sourceAbsent target => cases hd
    | create hmirror => cases hd
    | foreign s hmarker => cases hd
    | inSync hmarker hequal => cases hd
    | @update s t data hmarker hdiffers hdata =>
      exact ⟨s, t, rfl, rfl, hmarker, Secret.not_equal_iff.1 hdiffers⟩
  · rintro ⟨s, t, rfl, rfl, hmarker, hdiffers⟩
    have hequal : Data.equal t.data s.data = false := Secret.not_equal_iff.2 hdiffers
    cases h with
    | foreign s hnone => simp [hmarker] at hnone
    | inSync _ hsame => simp [hequal] at hsame
    | update _ _ hdata => rfl

/-- The decision depends on nothing but what it looks at. -/
theorem exists_matches (h : Decides name source target d)
    (hsource : Option.Rel Secret.Resembles source source')
    (htarget : Option.Rel Secret.Reordered target target') :
    ∃ d', Decides name source' target' d' ∧ d.Matches d' := by
  -- Each rule of the decision has a counterpart for the other secrets, since marker, equality and
  -- data are kept under both relations.
  cases h with
  | sourceAbsent target =>
    cases hsource with
    | none => exact ⟨_, .sourceAbsent target', .noOp _⟩
  | @create s r hmirror =>
    obtain ⟨data, hdata, rfl⟩ := Secret.mirror_eq_ok_iff.1 hmirror
    cases hsource with
    | @some _ s' hs =>
      cases htarget with
      | none =>
        obtain ⟨data', hdata', hsame⟩ := hs.exists_data hdata
        refine ⟨_, .create (Secret.mirror_eq_ok_iff.2 ⟨data', hdata', rfl⟩), .create ?_⟩
        rw [hs.space, hs.description]
        exact ⟨rfl, rfl, hsame⟩
  | @foreign s t hmarker =>
    cases hsource with
    | @some _ s' hs =>
      cases htarget with
      | some ht => exact ⟨_, .foreign s' (ht.isManaged_eq.trans hmarker), .noOp _⟩
  | @inSync s t hmarker hequal =>
    cases hsource with
    | some hs =>
      cases htarget with
      | some ht =>
        have hsame := Secret.equal_congr ht.data hs.data
        exact ⟨_, .inSync (ht.isManaged_eq.trans hmarker) (hsame.trans hequal), .noOp _⟩
  | @update s t data hmarker hdiffers hdata =>
    cases hsource with
    | some hs =>
      cases htarget with
      | some ht =>
        have hsame := Secret.equal_congr ht.data hs.data
        obtain ⟨data', hdata', hnames⟩ := hs.exists_data hdata
        refine ⟨_, .update (ht.isManaged_eq.trans hmarker) (hsame.trans hdiffers) hdata',
          .update ?_⟩
        rw [ht.rest]
        exact ⟨rfl, rfl, hnames⟩

end Decides

/-- Something is decided about every canonical secret with data and every mirror.  A secret is to be
written just if the mirror is to be created or updated; if that secret were the mirror, nothing
would be left to do.  An update changes nothing but the data, and takes place just if the mirror is
marked and some datum is missing, too many, or bound to other bytes.  Secrets that are alike in what
is looked at get the same decision, but for the order of the data to write, which is that of the
canonical secret. -/
theorem decide_settles {source : Option Secret} (target : Option Secret) (name : Value)
    (hdata : ∀ s, source = some s → ∃ data, s.data = some data) :
    ∃ d, decide source target name = .ok d ∧
      ((∃ u, d.secret? = some u) ↔ d.action = .create ∨ d.action = .update) ∧
      (∀ u, d.secret? = some u → (∃ s, source = some s ∧ u.data = s.data) ∧
        ∀ other, decide source (some u) other = .ok (.noOp .inSync)) ∧
      (∀ u, d = .update u → ∃ t, target = some t ∧ u = { t with data := u.data }) ∧
      (d.action = .update ↔ ∃ s t, source = some s ∧ target = some t ∧ t.isManaged = true ∧
        ∃ datum, t.datum? datum ≠ s.datum? datum) ∧
      ∀ source' target', Option.Rel Secret.Resembles source source' →
        Option.Rel Secret.Reordered target target' →
        ∃ d', decide source' target' name = .ok d' ∧ d.Matches d' := by
  obtain ⟨d, hd⟩ := exists_decides name target hdata
  refine ⟨d, decide_eq_ok_iff.2 hd, ?_, fun u hu => ⟨?_, fun other => ?_⟩, fun u hu => ?_,
    hd.action_eq_update_iff, fun source' target' hsource htarget => ?_⟩
  · cases d <;> simp [Decision.secret?, Decision.action]
  · cases hd with
    | sourceAbsent target => cases hu
    | foreign s hmarker => cases hu
    | inSync hmarker hequal => cases hu
    | create hmirror =>
      cases hu
      exact ⟨_, rfl, Secret.data_of_mirror hmirror⟩
    | update _ _ hcopied =>
      cases hu
      exact ⟨_, rfl, hcopied.symm⟩
  · exact decide_eq_ok_iff.2 (hd.settled hu other)
  · subst hu
    cases hd with
    | update _ _ _ => exact ⟨_, rfl, rfl⟩
  · obtain ⟨d', hd', hmatches⟩ := hd.exists_matches hsource htarget
    exact ⟨d', decide_eq_ok_iff.2 hd', hmatches⟩

/-! ## An example -/

namespace Decision.Example

/-- A canonical secret with two data, a label and a description among annotations that are a
view. -/
def renewed (data : Data) (label : String) : Secret where
  name := .text Names.source
  space := .text Names.configNamespace
  data := some data
  annotations := .view [("owner", .text label), (Names.description, .text "keys")]
  labels := .object [("label", .text label)]
  uid := .text label

/-- A mirror of the operator with data of its own. -/
def outdated (data : Data) : Secret where
  name := .text Names.target
  space := .text Names.configNamespace
  data := some data
  annotations := .object [(Names.managedBy, .text Names.manager), ("note", .text "kept")]
  resourceVersion := .text "7"

end Decision.Example

open Decision.Example in
/-- A mirror in which one datum is outdated, one is missing and one is too many is updated, once and
for all; another canonical secret and another order of the data make no difference. -/
theorem decide_settles_drifted :
    ∃ u, decide (some (renewed [("a", [1]), ("b", [2])] "x"))
        (some (outdated [("a", [9]), ("c", [3])])) (.text Names.target) = .ok (.update u) ∧
      u = { outdated [("a", [9]), ("c", [3])] with data := u.data } ∧
      decide (some (renewed [("a", [1]), ("b", [2])] "x")) (some u) (.text "other") =
        .ok (.noOp .inSync) ∧
      ∃ d, decide (some (renewed [("b", [2]), ("a", [1])] "y"))
          (some (outdated [("c", [3]), ("a", [9])])) (.text Names.target) = .ok d ∧
        (Decision.update u).Matches d := by
  have hdata : ∀ s, some (renewed [("a", [1]), ("b", [2])] "x") = some s →
      ∃ data, s.data = some data := fun s hs =>
    ⟨_, (congrArg Secret.data (Option.some.inj hs)).symm⟩
  obtain ⟨d, hd, -, hwrites, hkeeps, hupdates, hdepends⟩ :=
    decide_settles (some (outdated [("a", [9]), ("c", [3])])) (.text Names.target) hdata
  have haction : d.action = .update := hupdates.2 ⟨_, _, rfl, rfl, rfl, "b", by decide⟩
  cases d with
  | noOp why => cases haction
  | create u => cases haction
  | update u =>
    obtain ⟨t, ht, hu⟩ := hkeeps u rfl
    cases ht
    exact ⟨u, hd, hu, (hwrites u rfl).2 _, hdepends _ _
      (.some ⟨rfl, rfl, rfl, Secret.equal_iff.1 (by decide)⟩)
      (.some ⟨rfl, rfl, Secret.equal_iff.1 (by decide)⟩)⟩

end SecretMirror
