import SecretMirror.Log
import SecretMirror.Proofs.Json.Reading
import SecretMirror.Proofs.Redaction.Reports

/-!
# What log lines say

A log line is written for one event and can be read back.  Whatever the texts in it, be they names,
messages or what a fault says of itself, the line is printable ASCII with a line feed at its end
only, and the JSON document on it is the object of its fields (`Log.Line.Tells`).  So no text can
end a line early and begin one of its own.

The object has the eight plain fields of every line (`plainFields`).  Further fields override them
where they stand and follow them in their order, and what is said of a fault, its redacted text and
its class, overrides the further fields themselves (`Shows`).  So a further field can neither take
the place of the redacted text nor bring it back unredacted (`lines_tell`).

This is said of all values that a JSON document with whole numbers stands for, and of further fields
that do not bear a name that is given already; a line with one of these is refused.  Numbers of more
digits than any document is read with are refused as well (`lines_refuse_long`), so for whole
numbers there is nothing between a line that tells its fields and a line that is not written.
-/

namespace SecretMirror.Log

variable {τ : Type}

/-! ## What a line tells -/

/-- At an enabled level the line adds one line to the output, in printable ASCII, and what is read
from that is the object of the fields `shown`. -/
def Line.Tells (line : Line) (shown : Fields Value) : Prop :=
  ∀ threshold, isEnabled threshold line.level = true → ∃ text : String,
    line.output threshold = text ++ "\n" ∧
    (∀ c ∈ text.toList, 32 ≤ c.toNat ∧ c.toNat < 127) ∧
    Json.read (line.output threshold).toList = some (.object shown)

/-- The fields that every line has, in their order, as they are where no further field overrides
them.  What the metadata of the object does not say is filled in: an object without a namespace is
said to be in `default`, and one without a name or a uid is `unknown`. -/
def plainFields (kind message : Value) (about : Fields Value) (event reason : String) :
    Fields Value :=
  [("controller", .text "OAuthAPIServerEncryptionConfigSyncController"), ("resource", kind),
    ("name", (about.get? "name").getD (.text "unknown")),
    ("namespace", (about.get? "namespace").getD (.text "default")),
    ("uid", (about.get? "uid").getD (.text "unknown")), ("event", .text event),
    ("reason", .text reason), ("message", message)]

/-- The fields `shown` are the plain ones as the further ones override and extend them, and these as
the cause does.  Each name stands once: the plain ones first, then what the further fields add, in
their order, and then what the cause adds. -/
structure Shows (plain further cause shown : Fields Value) : Prop where
  ofCause : ∀ name v, cause.get? name = some v → shown.get? name = some v
  ofFurther : ∀ name v, cause.get? name = none → further.get? name = some v →
    shown.get? name = some v
  ofPlain : ∀ name, cause.get? name = none → further.get? name = none →
    shown.get? name = plain.get? name
  order : shown.names = plain.names ++ further.names.filter (· ∉ plain.names) ++
    cause.names.filter (· ∉ plain.names ++ further.names)

/-- All names that are given already, to either kind of line: the parameters of the functions that
log, and of the one that they hand their fields to.  A call with one of these as a further field is
refused. -/
def givenNames : List String :=
  ["self", "meta", "message", "level", "controller", "resource_kind", "resource_name", "namespace",
    "uid", "logger"]

/-- What a line may be made from: JSON values, about an object, and further fields of which none has
a name that is given already. -/
structure IsLoggable (given : List String) (kind message : Value) (about fields : Fields Value) :
    Prop where
  isJson_kind : kind.IsJson
  isJson_message : message.IsJson
  isJson_about : (Value.object about).IsJson
  isJson_fields : (Value.object fields).IsJson
  free : ∀ name ∈ fields.names, name ∉ given

/-! ## Documents -/

/-- A line of fields that are a document tells these. -/
theorem exists_lineOf_tells {fields : Fields Value} (hfields : (Value.object fields).IsDocument)
    (level : Int) : ∃ line, lineOf (.int level) fields = .ok line ∧ line.level = level ∧
      line.Tells fields := by
  refine ⟨⟨level, String.ofList (Json.write (.object fields))⟩, ?_, rfl, ?_⟩
  · unfold lineOf
    rw [hfields.unwritable?_eq_none]
    rfl
  · intro threshold henabled
    have houtput : Line.output threshold ⟨level, String.ofList (Json.write (.object fields))⟩ =
        String.ofList (Json.write (.object fields)) ++ "\n" := if_pos henabled
    refine ⟨_, houtput, ?_, ?_⟩
    · rw [String.toList_ofList]
      exact Json.isPlain_write hfields
    · rw [houtput, String.toList_append, String.toList_ofList]
      exact Json.read_write_line hfields

/-- The further fields but the event and the reason, which replace defaults. -/
def furtherFields (fields : Fields Value) : Fields Value := extraFields ["event", "reason"] fields

theorem nodup_names {fields : Fields Value} (h : (Value.object fields).IsDocument) :
    fields.names.Nodup := by
  cases h with
  | object hnames _ => exact hnames

theorem isDocument_get? {fields : Fields Value} (h : (Value.object fields).IsDocument)
    {name : String} {fallback : Value} (hfallback : fallback.IsDocument) :
    ((fields.get? name).getD fallback).IsDocument := by
  cases hget : fields.get? name with
  | none => exact hfallback
  | some v =>
    obtain ⟨-, hall⟩ : fields.names.Nodup ∧ ∀ e ∈ fields, e.2.IsDocument := by
      cases h with
      | object hnames hall => exact ⟨hnames, hall⟩
    exact hall _ (Fields.mem_of_get? hget)

theorem isDocument_extraFields {fields : Fields Value} (h : (Value.object fields).IsDocument)
    (settings : List String) : (Value.object (extraFields settings fields)).IsDocument := by
  cases h with
  | object hnames hall =>
    refine .object ?_ fun e he => hall e (List.mem_filter.1 he).1
    exact hnames.sublist (List.filter_sublist.map Prod.fst)

theorem isDocument_merge {base extra : Fields Value} (hbase : (Value.object base).IsDocument)
    (hextra : (Value.object extra).IsDocument) : (Value.object (base.merge extra)).IsDocument := by
  cases hbase with
  | object hnames hall =>
    cases hextra with
    | object _ hall' =>
      exact .object (Fields.nodup_merge hnames extra) fun e he =>
        (Fields.mem_merge he).elim (hall e) (hall' e)

theorem isDocument_causeFields (text typeName : String) :
    (Value.object (causeFields text typeName)).IsDocument := by
  refine .object (by simp [causeFields, Fields.names]) fun e he => ?_
  simp only [causeFields, List.mem_cons, List.not_mem_nil, or_false] at he
  rcases he with rfl | rfl
  · exact .text _
  · exact .text _

theorem isDocument_baseFields {kind event reason message : Value} {context : Context}
    (hkind : kind.IsDocument) (hname : context.name.IsDocument) (hspace : context.space.IsDocument)
    (huid : context.uid.IsDocument) (hevent : event.IsDocument) (hreason : reason.IsDocument)
    (hmessage : message.IsDocument) :
    (Value.object (baseFields kind context event reason message)).IsDocument := by
  refine .object (by simp [baseFields, Fields.names]) fun e he => ?_
  simp only [baseFields, List.mem_cons, List.not_mem_nil, or_false] at he
  rcases he with rfl | rfl | rfl | rfl | rfl | rfl | rfl | rfl
  · exact .text _
  all_goals assumption

theorem refuseGiven_eq_ok {given : List String} {fields : Fields Value}
    (h : ∀ name ∈ fields.names, name ∉ given) (place : Clash) :
    refuseGiven place given fields = .ok () := by
  have hnone : fields.names.find? given.contains = none :=
    List.find?_eq_none.2 fun name hname => by simpa using h name hname
  rw [refuseGiven, hnone]

theorem names_extraFields {settings : List String} {fields : Fields Value} {name : String}
    (h : name ∈ (extraFields settings fields).names) : name ∈ fields.names :=
  (List.filter_sublist.map Prod.fst).subset h

/-! ## The fields of a line -/

section

variable {kind message : Value} {about fields cause : Fields Value} {event reason : String}

theorem get?_furtherFields (fields : Fields Value) (name : String) :
    (furtherFields fields).get? name =
      if name = "event" ∨ name = "reason" then none else fields.get? name := by
  induction fields with
  | nil => simp [furtherFields, extraFields]
  | cons e rest ih =>
    obtain ⟨k, v⟩ := e
    have hcons : furtherFields ((k, v) :: rest) =
        if k = "event" ∨ k = "reason" then furtherFields rest
        else (k, v) :: furtherFields rest := by
      by_cases hk : k = "event" ∨ k = "reason"
      · rw [if_pos hk]
        rcases hk with rfl | rfl <;> rfl
      · rw [if_neg hk]
        simp only [not_or] at hk
        simp [furtherFields, extraFields, hk]
    rw [hcons, Fields.get?_cons]
    by_cases hk : k = "event" ∨ k = "reason"
    · rw [if_pos hk, ih]
      by_cases heq : k = name
      · rw [if_pos (heq ▸ hk), if_pos (heq ▸ hk)]
      · rw [if_neg heq]
    · rw [if_neg hk, Fields.get?_cons, ih]
      by_cases heq : k = name
      · rw [if_pos heq, if_neg (heq ▸ hk), if_pos heq]
      · rw [if_neg heq, if_neg heq]

theorem names_furtherFields (fields : Fields Value) : (furtherFields fields).names =
    fields.names.filter fun name => name ≠ "event" ∧ name ≠ "reason" := by
  induction fields with
  | nil => rfl
  | cons e rest ih =>
    obtain ⟨k, v⟩ := e
    by_cases hk : k = "event" ∨ k = "reason"
    · rw [Fields.names_cons, List.filter_cons_of_neg (by simpa [or_iff_not_imp_left] using hk),
        ← ih]
      rcases hk with rfl | rfl <;> rfl
    · simp only [not_or] at hk
      rw [Fields.names_cons, List.filter_cons_of_pos (by simpa using hk), ← ih]
      simp [furtherFields, extraFields, hk, Fields.names]

theorem nodup_furtherFields (hfields : fields.names.Nodup) :
    (furtherFields fields).names.Nodup := by
  rw [names_furtherFields]
  exact hfields.filter _

/-- The context of an object with given metadata, as `_get_resource_context` takes it from there. -/
def contextOf (about : Fields Value) : Context where
  name := (about.get? "name").getD (.text "unknown")
  space := (about.get? "namespace").getD (.text "default")
  uid := (about.get? "uid").getD (.text "unknown")

/-- The base fields with their event and reason, as further fields set them. -/
def settledFields (kind message : Value) (about fields : Fields Value) (event reason : String) :
    Fields Value :=
  baseFields kind (contextOf about) ((fields.get? "event").getD (.text event))
    ((fields.get? "reason").getD (.text reason)) message

theorem names_settledFields : (settledFields kind message about fields event reason).names =
    (plainFields kind message about event reason).names := rfl

/-- The event and the reason that a further field gives stand among the base fields. -/
theorem settledFields_further {name : String} {v : Value} (hv : fields.get? name = some v)
    (hname : name = "event" ∨ name = "reason") :
    (settledFields kind message about fields event reason).get? name = some v := by
  rcases hname with rfl | rfl
  · simp [settledFields, baseFields, Fields.get?_cons, hv]
  · simp [settledFields, baseFields, Fields.get?_cons, hv]

/-- What no further field gives is as in every line. -/
theorem settledFields_plain {name : String} (hnone : fields.get? name = none) :
    (settledFields kind message about fields event reason).get? name =
      (plainFields kind message about event reason).get? name := by
  by_cases hevent : name = "event"
  · subst hevent
    simp [settledFields, baseFields, plainFields, Fields.get?_cons, hnone]
  · by_cases hreason : name = "reason"
    · subst hreason
      simp [settledFields, baseFields, plainFields, Fields.get?_cons, hnone]
    · have hevent' : "event" ≠ name := fun heq => hevent heq.symm
      have hreason' : "reason" ≠ name := fun heq => hreason heq.symm
      simp only [settledFields, baseFields, plainFields, Fields.get?_cons, if_neg hevent',
        if_neg hreason', contextOf, Names.controller]

/-- Each name stands once: those of the plain fields, then those that the further fields add, and
then those that the cause adds. -/
theorem names_merge_settledFields (hfields : fields.names.Nodup) (hcause : cause.names.Nodup)
    (hapart : ∀ name ∈ cause.names, name ≠ "event" ∧ name ≠ "reason") :
    ((settledFields kind message about fields event reason).merge
        ((furtherFields fields).merge cause)).names =
      (plainFields kind message about event reason).names ++
        fields.names.filter (· ∉ (plainFields kind message about event reason).names) ++
        cause.names.filter
          (· ∉ (plainFields kind message about event reason).names ++ fields.names) := by
  have hplain : ∀ name, name ∉ (plainFields kind message about event reason).names →
      name ≠ "event" ∧ name ≠ "reason" := by
    intro name hname
    simp only [plainFields, Fields.names, List.map_cons, List.mem_cons, not_or] at hname
    exact ⟨hname.2.2.2.2.2.1, hname.2.2.2.2.2.2.1⟩
  rw [(Fields.extends_merge (Fields.nodup_merge (nodup_furtherFields hfields) cause)).names,
    (Fields.extends_merge hcause).names, names_settledFields, List.filter_append, List.append_assoc,
    names_furtherFields, List.filter_filter, List.filter_filter]
  congr 2
  · refine List.filter_congr fun name _ => ?_
    by_cases hname : name ∈ (plainFields kind message about event reason).names
    · simp [hname]
    · simp [hname, hplain name hname]
  · refine List.filter_congr fun name hname => ?_
    simp [hapart name hname, List.mem_append]

/-- The fields that either kind of line is made of are as they should be shown. -/
theorem shows_merge (hfields : fields.names.Nodup) (hcause : cause.names.Nodup)
    (hapart : ∀ name ∈ cause.names, name ≠ "event" ∧ name ≠ "reason") :
    Shows (plainFields kind message about event reason) fields cause
      ((settledFields kind message about fields event reason).merge
        ((furtherFields fields).merge cause)) := by
  have hmore : Fields.Extends (furtherFields fields) cause ((furtherFields fields).merge cause) :=
    Fields.extends_merge hcause
  have hshown : Fields.Extends (settledFields kind message about fields event reason)
      ((furtherFields fields).merge cause)
      ((settledFields kind message about fields event reason).merge
        ((furtherFields fields).merge cause)) :=
    Fields.extends_merge (Fields.nodup_merge (nodup_furtherFields hfields) cause)
  refine ⟨fun name v hv => ?_, fun name v hnone hv => ?_, fun name hnone hnone' => ?_, ?_⟩
  · rw [hshown.get?, hmore.get?, hv]
    rfl
  · rw [hshown.get?, hmore.get?, hnone, get?_furtherFields]
    by_cases hname : name = "event" ∨ name = "reason"
    · rw [if_pos hname, settledFields_further hv hname]
      rfl
    · rw [if_neg hname, hv]
      rfl
  · rw [hshown.get?, hmore.get?, hnone, get?_furtherFields, hnone', ite_self,
      settledFields_plain hnone']
    rfl
  · exact names_merge_settledFields hfields hcause hapart

end

/-- What should be shown is determined by the three, so a line that shows it can be rewritten. -/
theorem Shows.eq_merge {plain further cause shown : Fields Value}
    (h : Shows plain further cause shown) (hplain : plain.names.Nodup)
    (hfurther : further.names.Nodup) (hcause : cause.names.Nodup) :
    shown = plain.merge (further.merge cause) := by
  have hmore : Fields.Extends further cause (further.merge cause) := Fields.extends_merge hcause
  have hall : Fields.Extends plain (further.merge cause) (plain.merge (further.merge cause)) :=
    Fields.extends_merge (Fields.nodup_merge hfurther cause)
  have hnames : (plain.merge (further.merge cause)).names = shown.names := by
    rw [hall.names, hmore.names, h.order, List.filter_append, List.append_assoc, List.filter_filter]
    congr 2
    refine List.filter_congr fun name _ => ?_
    simp [List.mem_append]
  have hnodup := Fields.nodup_merge hplain (further.merge cause)
  refine (Fields.eq_of_get? hnodup hnames fun name => ?_).symm
  rw [hall.get?, hmore.get?]
  cases hc : cause.get? name with
  | some v => exact (h.ofCause name v hc).symm
  | none =>
    cases hf : further.get? name with
    | some v => exact (h.ofFurther name v hc hf).symm
    | none => exact (h.ofPlain name hc hf).symm

/-! ## The two kinds of line -/

section

variable {given : List String} {kind message : Value} {about fields : Fields Value}

theorem IsLoggable.mono (h : IsLoggable given kind message about fields) {given' : List String}
    (hgiven : ∀ name, name ∈ given' → name ∈ given) :
    IsLoggable given' kind message about fields :=
  { h with free := fun name hname hmem => h.free name hname (hgiven name hmem) }

theorem IsLoggable.isDocument_fields (h : IsLoggable given kind message about fields) :
    (Value.object fields).IsDocument :=
  Value.isDocument_iff.2 h.isJson_fields

/-- The fields of a line about it, with what is said of a fault, are a document, so the line can be
written and read back. -/
theorem IsLoggable.isDocument_shown (h : IsLoggable given kind message about fields)
    {cause : Fields Value} (hcause : (Value.object cause).IsDocument) (event reason : String) :
    (Value.object ((settledFields kind message about fields event reason).merge
      ((furtherFields fields).merge cause))).IsDocument := by
  have habout := Value.isDocument_iff.2 h.isJson_about
  have hbase :
      (Value.object (settledFields kind message about fields event reason)).IsDocument :=
    isDocument_baseFields (Value.isDocument_iff.2 h.isJson_kind)
      (isDocument_get? habout (.text _)) (isDocument_get? habout (.text _))
      (isDocument_get? habout (.text _)) (isDocument_get? h.isDocument_fields (.text event))
      (isDocument_get? h.isDocument_fields (.text reason))
      (Value.isDocument_iff.2 h.isJson_message)
  exact isDocument_merge hbase
    (isDocument_merge (isDocument_extraFields h.isDocument_fields _) hcause)

theorem extraFields_eq_furtherFields {name : String} (h : name ∉ fields.names) :
    extraFields ["event", "reason", name] fields = furtherFields fields := by
  refine List.filter_congr fun e he => ?_
  have hne : e.1 ≠ name := fun heq => h (heq ▸ List.mem_map_of_mem he)
  simp [hne]

theorem refuseGiven_eq_ok_of_free (hfree : ∀ name ∈ fields.names, name ∉ given)
    {names : List String} (hnames : ∀ name ∈ names, name ∈ given) (place : Clash) :
    refuseGiven place names fields = .ok () ∧
      refuseGiven place names (furtherFields fields) = .ok () :=
  ⟨refuseGiven_eq_ok (fun name hname hmem => hfree name hname (hnames name hmem)) place,
    refuseGiven_eq_ok (fun name hname hmem =>
      hfree name (names_extraFields hname) (hnames name hmem)) place⟩

/-- A line that informs is made of the fields that should be shown. -/
theorem informLine_eq (hfree : ∀ name ∈ fields.names, name ∉ givenNames) :
    informLine kind (.object about) message fields =
      lineOf (.int infoLevel) ((settledFields kind message about fields "info" "Info").merge
        (furtherFields fields)) := by
  have hlevel : "level" ∉ fields.names := fun hmem => hfree _ hmem (by decide)
  have hcaller : refuseGiven .inform callerNames fields = .ok () :=
    (refuseGiven_eq_ok_of_free hfree (by decide) .inform).1
  have hidentity : refuseGiven .identity identityNames (furtherFields fields) = .ok () :=
    (refuseGiven_eq_ok_of_free hfree (by decide) .identity).2
  have hwriter : refuseGiven .writer writerNames (furtherFields fields) = .ok () :=
    (refuseGiven_eq_ok_of_free hfree (by decide) .writer).2
  have hcontext : Context.ofMetadata (.object about) = .ok (contextOf about) := rfl
  simp only [informLine, hcaller, hcontext, extraFields_eq_furtherFields hlevel, hidentity,
    hwriter, Fields.get?_eq_none_iff.2 hlevel, Option.getD_none, bind, Except.bind]
  rfl

/-- A line about a fault is made of the fields that should be shown, with what the fault says. -/
theorem errorLine_eq (hfree : ∀ name ∈ fields.names, name ∉ "error" :: givenNames)
    (fault : Fault τ) :
    errorLine kind (.object about) message (some fault) fields =
      lineOf (.int errorLevel) ((settledFields kind message about fields "error" "Error").merge
        ((furtherFields fields).merge (causeFields fault.message fault.typeName))) := by
  have herror : "error" ∉ fields.names := fun hmem => hfree _ hmem (by decide)
  have hcaller : refuseGiven .report callerNames fields = .ok () :=
    (refuseGiven_eq_ok_of_free hfree (by decide) .report).1
  have hidentity : refuseGiven .identity ("level" :: identityNames) (furtherFields fields) =
      .ok () := (refuseGiven_eq_ok_of_free hfree (by decide) .identity).2
  have hwriter : refuseGiven .writer writerNames (furtherFields fields) = .ok () :=
    (refuseGiven_eq_ok_of_free hfree (by decide) .writer).2
  have hcontext : Context.ofMetadata (.object about) = .ok (contextOf about) := rfl
  have hcause : faultFields (some fault) ((fields.get? "error").getD .null) =
      .ok (causeFields fault.message fault.typeName) := rfl
  simp only [errorLine, hcaller, hcontext, hcause, extraFields_eq_furtherFields herror, hidentity,
    hwriter, bind, Except.bind]
  rfl

/-- A line that informs tells the plain fields as the further ones override and extend them. -/
theorem informLine_tells (h : IsLoggable givenNames kind message about fields) :
    ∃ line shown, informLine kind (.object about) message fields = .ok line ∧ line.level = 20 ∧
      line.Tells shown ∧
      Shows (plainFields kind message about "info" "Info") fields [] shown := by
  have hempty : (Value.object []).IsDocument := .object List.nodup_nil nofun
  have hshown := h.isDocument_shown hempty "info" "Info"
  obtain ⟨line, hline, hat, htells⟩ := exists_lineOf_tells hshown infoLevel
  refine ⟨line, _, (informLine_eq h.free).trans hline, hat, htells, shows_merge ?_ ?_ nofun⟩
  · exact nodup_names h.isDocument_fields
  · exact List.nodup_nil

/-- A line about a fault tells the same with the text of the fault, redacted, and its class, in
place of what the further fields say of these. -/
theorem errorLine_tells (h : IsLoggable ("error" :: givenNames) kind message about fields)
    (fault : Fault τ) :
    ∃ line shown, errorLine kind (.object about) message (some fault) fields = .ok line ∧
      line.level = 40 ∧ line.Tells shown ∧
      Shows (plainFields kind message about "error" "Error") fields
        [("error", .text (Redaction.redact fault.message)), ("error_type", .text fault.typeName)]
        shown := by
  have hcause := isDocument_causeFields fault.message fault.typeName
  obtain ⟨line, hline, hat, htells⟩ :=
    exists_lineOf_tells (h.isDocument_shown hcause "error" "Error") errorLevel
  refine ⟨line, _, (errorLine_eq h.free fault).trans hline, hat, htells, shows_merge ?_ ?_ ?_⟩
  · exact nodup_names h.isDocument_fields
  · exact nodup_names hcause
  · show ∀ name ∈ ["error", "error_type"], name ≠ "event" ∧ name ≠ "reason"
    decide

theorem isWhole_get? (hfields : ∀ e ∈ fields, e.2.IsWhole) (name fallback : String) :
    ((fields.get? name).getD (.text fallback)).IsWhole := by
  cases hname : fields.get? name with
  | none => exact .text fallback
  | some v => exact hfields _ (Fields.mem_of_get? hname)

/-- Numbers are whole in the fields of a line if they are in what the line is made from. -/
theorem isWhole_shown {cause : Fields Value} (hkind : kind.IsWhole) (hmessage : message.IsWhole)
    (habout : ∀ e ∈ about, e.2.IsWhole) (hfields : ∀ e ∈ fields, e.2.IsWhole)
    (hcause : ∀ e ∈ cause, e.2.IsWhole) (event reason : String) :
    (Value.object ((settledFields kind message about fields event reason).merge
      ((furtherFields fields).merge cause))).IsWhole := by
  refine .object fun e he => ?_
  rcases Fields.mem_merge he with he | he
  · simp only [settledFields, baseFields, List.mem_cons, List.not_mem_nil, or_false] at he
    rcases he with rfl | rfl | rfl | rfl | rfl | rfl | rfl | rfl
    · exact .text _
    · exact hkind
    · exact isWhole_get? habout "name" "unknown"
    · exact isWhole_get? habout "namespace" "default"
    · exact isWhole_get? habout "uid" "unknown"
    · exact isWhole_get? hfields "event" event
    · exact isWhole_get? hfields "reason" reason
    · exact hmessage
  · rcases Fields.mem_merge he with he | he
    · exact hfields e (List.mem_filter.1 he).1
    · exact hcause e he

/-- A further field with a number of too many digits keeps a line from being written, unless the
cause takes the place of that field. -/
theorem lineOf_eq_tooManyDigits {cause : Fields Value} (hkind : kind.IsWhole)
    (hmessage : message.IsWhole) (habout : ∀ e ∈ about, e.2.IsWhole)
    (hfields : ∀ e ∈ fields, e.2.IsWhole) (hcause : ∀ e ∈ cause, e.2.IsWhole)
    (hnames : fields.names.Nodup) (hnodup : cause.names.Nodup)
    (hapart : ∀ name ∈ cause.names, name ≠ "event" ∧ name ≠ "reason") {name : String} {v : Value}
    (hv : fields.get? name = some v) (hlong : v.hasTooLong = true) (hnone : cause.get? name = none)
    (level : Int) (event reason : String) :
    lineOf (.int level) ((settledFields kind message about fields event reason).merge
      ((furtherFields fields).merge cause)) = .error .tooManyDigits := by
  have hshows : Shows (plainFields kind message about event reason) fields cause _ :=
    shows_merge hnames hnodup hapart
  have hmem := Fields.mem_of_get? (hshows.ofFurther name v hnone hv)
  have hwhole := isWhole_shown hkind hmessage habout hfields hcause event reason
  rw [lineOf, hwhole.unwritable?_eq, Value.hasTooLong_object hmem hlong]
  rfl

/-- Whole numbers do not keep a line from being written, unless one of them has too many digits.
Then either kind of line is refused with a value error, whatever else is in its fields; only under
`error_type` is there no harm in it for a line about a fault, since that is overridden. -/
theorem lines_refuse_long (hkind : kind.IsWhole) (hmessage : message.IsWhole)
    (habout : ∀ e ∈ about, e.2.IsWhole) (hfields : ∀ e ∈ fields, e.2.IsWhole)
    (hnames : fields.names.Nodup) {name : String} {v : Value} (hv : fields.get? name = some v)
    (hlong : v.hasTooLong = true) (hname : name ≠ "error_type")
    (hfree : ∀ name ∈ fields.names, name ∉ "error" :: givenNames) (fault : Fault τ) :
    errorLine kind (.object about) message (some fault) fields = .error .tooManyDigits ∧
      informLine kind (.object about) message fields = .error .tooManyDigits := by
  have herror : name ≠ "error" := fun heq =>
    hfree name (List.mem_map_of_mem (Fields.mem_of_get? hv)) (heq ▸ List.mem_cons_self)
  constructor
  · rw [errorLine_eq hfree fault]
    have hcause := isDocument_causeFields fault.message fault.typeName
    refine lineOf_eq_tooManyDigits hkind hmessage habout hfields (fun e he => ?_) hnames
      (nodup_names hcause) ?_ hv hlong ?_ _ _ _
    · cases hcause.isWhole with
      | object hall => exact hall e he
    · show ∀ name ∈ ["error", "error_type"], name ≠ "event" ∧ name ≠ "reason"
      decide
    · simp [causeFields, Fields.get?_cons, herror.symm, hname.symm]
  · rw [informLine_eq fun name hmem hgiven => hfree name hmem (List.mem_cons_of_mem _ hgiven)]
    have hempty : ∀ e ∈ ([] : Fields Value), e.2.IsWhole := nofun
    exact lineOf_eq_tooManyDigits hkind hmessage habout hfields hempty hnames List.nodup_nil nofun
      hv hlong rfl infoLevel "info" "Info"

end

/-- Log lines cannot be forged, and what they say of a fault is redacted.  For every fault, and all
JSON values with whole numbers to make a line from, with further fields that bear no name that is
given already: a line about the fault is made, and at an enabled level it adds exactly one line of
printable ASCII to the output, from which the object is read that the plain fields make as the
further fields override and extend them, in their order.  Only `error` and `error_type` are what the
sweeps leave of the text of the fault and its class, whatever the further fields are; so no
assignment to a sensitive field is left in that text with a value of its own.  A line that informs
is made and read in the same way, without what is said of a fault. -/
theorem lines_tell :
    (∀ (kind message : Value) (about fields : Fields Value) (fault : Fault τ),
      IsLoggable ("error" :: givenNames) kind message about fields →
      ∃ line shown error, errorLine kind (.object about) message (some fault) fields = .ok line ∧
        line.level = 40 ∧ line.Tells shown ∧
        error.toList = Redaction.redactWith Redaction.fields fault.message.toList ∧
        (∀ field ∈ Redaction.fields, Redaction.IsRedacted field error.toList) ∧
        Shows (plainFields kind message about "error" "Error") fields
          [("error", .text error), ("error_type", .text fault.typeName)] shown) ∧
    ∀ (kind message : Value) (about fields : Fields Value),
      IsLoggable givenNames kind message about fields →
      ∃ line shown, informLine kind (.object about) message fields = .ok line ∧
        line.level = 20 ∧ line.Tells shown ∧
        Shows (plainFields kind message about "info" "Info") fields [] shown := by
  refine ⟨fun kind message about fields fault h => ?_, fun _ _ _ _ h => informLine_tells h⟩
  obtain ⟨line, shown, hline, hat, htells, hshows⟩ := errorLine_tells h fault
  exact ⟨line, shown, _, hline, hat, htells, Redaction.toList_redact _,
    fun field hfield => Redaction.isRedacted_redact _ hfield, hshows⟩

namespace Example

/-- Further fields that would end the line, take the place of a plain field, tell another class, and
leave the basic plane. -/
def fields : Fields Value :=
  [("reason", .text "Denied\n\x7b\x7d"), ("resource", .text "Pod"), ("error_type", .text "None"),
    ("note", .list [.int (-5), .text "\"🦀\u2028"])]

/-- What the line is about. -/
def about : Fields Value := [("name", .text "a\\\r\nb"), ("uid", .null)]

/-- A refusal of the API in whose body a secret is quoted. -/
def fault : Fault ℚ := .api (.int 409) (.text "Conflict") (.text "token: abc")

theorem isLoggable : IsLoggable ("error" :: givenNames) (.text "Secret") (.text "failed") about
    fields where
  isJson_kind := Value.isDocument_iff.1 (.text _)
  isJson_message := Value.isDocument_iff.1 (.text _)
  isJson_about := by
    refine Value.isDocument_iff.1 (.object (by decide) fun e he => ?_)
    simp only [about, List.mem_cons, List.not_mem_nil, or_false] at he
    rcases he with rfl | rfl
    · exact .text _
    · exact .null
  isJson_fields := by
    refine Value.isDocument_iff.1 (.object (by decide) fun e he => ?_)
    simp only [fields, List.mem_cons, List.not_mem_nil, or_false] at he
    rcases he with rfl | rfl | rfl | rfl
    · exact .text _
    · exact .text _
    · exact .text _
    · refine .list fun v hv => ?_
      simp only [List.mem_cons, List.not_mem_nil, or_false] at hv
      rcases hv with rfl | rfl
      · exact .int (by decide)
      · exact .text _
  free := by decide

/-- What a line that informs shows of these. -/
def informs : Fields Value :=
  [("controller", .text "OAuthAPIServerEncryptionConfigSyncController"), ("resource", .text "Pod"),
    ("name", .text "a\\\r\nb"), ("namespace", .text "default"), ("uid", .null),
    ("event", .text "info"), ("reason", .text "Denied\n\x7b\x7d"), ("message", .text "failed"),
    ("error_type", .text "None"), ("note", .list [.int (-5), .text "\"🦀\u2028"])]

/-- What a line about the fault shows of these: the text of the fault at the end and redacted, and
its class in the place of the further field. -/
def reports : Fields Value :=
  [("controller", .text "OAuthAPIServerEncryptionConfigSyncController"), ("resource", .text "Pod"),
    ("name", .text "a\\\r\nb"), ("namespace", .text "default"), ("uid", .null),
    ("event", .text "error"), ("reason", .text "Denied\n\x7b\x7d"), ("message", .text "failed"),
    ("error_type", .text "ApiException"), ("note", .list [.int (-5), .text "\"🦀\u2028"]),
    ("error", .text
      "(409)\nReason: Conflict\nHTTP response body: token: [REDACTED]\n")]

end Example

/-- With such fields, either kind of line reads back to exactly these objects. -/
theorem lines_tell_despite_fields :
    (∃ line : Line, errorLine (.text "Secret") (.object Example.about) (.text "failed")
        (some Example.fault) Example.fields = .ok line ∧
      Json.read (line.output infoLevel).toList = some (.object Example.reports)) ∧
    ∃ line : Line, informLine (.text "Secret") (.object Example.about) (.text "failed")
        Example.fields = .ok line ∧
      Json.read (line.output infoLevel).toList = some (.object Example.informs) := by
  obtain ⟨herror, hinform⟩ := lines_tell (τ := ℚ)
  constructor
  · obtain ⟨line, shown, error, hline, hat, htells, htext, -, hshows⟩ :=
      herror _ _ _ _ Example.fault Example.isLoggable
    obtain ⟨-, -, -, hread⟩ := htells infoLevel (by rw [hat]; decide)
    have herrorText : error =
        "(409)\nReason: Conflict\nHTTP response body: token: [REDACTED]\n" := by
      rw [← String.toList_inj, htext]
      decide +kernel
    rw [herrorText] at hshows
    rw [hshows.eq_merge (by decide) (by decide) (by decide)] at hread
    exact ⟨line, hline, hread⟩
  · obtain ⟨line, shown, hline, hat, htells, hshows⟩ :=
      hinform _ _ _ _ (Example.isLoggable.mono fun _ => List.mem_cons_of_mem _)
    obtain ⟨-, -, -, hread⟩ := htells infoLevel (by rw [hat]; decide)
    rw [hshows.eq_merge (by decide) (by decide) (by decide)] at hread
    exact ⟨line, hline, hread⟩

end SecretMirror.Log
