import SecretMirror.Proofs.Json.Documents

/-!
# What JSON documents stand for

Whatever is read from a text is free of byte strings and views, names no field of an object twice,
and has no whole number of more digits than are read (`isReadable_of_read`).  Together with the way
back this says what the values are that a document with whole numbers stands for: those that are
read from some text (`isDocument_iff`).  So the limit on the digits of a number is no condition on
such values but a fact about them.
-/

namespace SecretMirror

/-- The value has the shape of what is read from a text: its numbers have no more digits than are
read, doubles are allowed, and objects name each field once. -/
inductive Value.IsReadable : Value → Prop where
  | null : IsReadable .null
  | bool (b : Bool) : IsReadable (.bool b)
  | int {n : Int} (hn : Text.isTooLong n = false) : IsReadable (.int n)
  | double (x : Binary64) : IsReadable (.double x)
  | text (s : String) : IsReadable (.text s)
  | list {items : List Value} (h : ∀ v ∈ items, IsReadable v) : IsReadable (.list items)
  | object {fields : Fields Value} (hnames : fields.names.Nodup)
      (h : ∀ e ∈ fields, IsReadable e.2) : IsReadable (.object fields)

/-- Numbers are whole wherever they stand in the value, in its items and in its fields. -/
inductive Value.IsWhole : Value → Prop where
  | null : IsWhole .null
  | bool (b : Bool) : IsWhole (.bool b)
  | int (n : Int) : IsWhole (.int n)
  | text (s : String) : IsWhole (.text s)
  | list {items : List Value} (h : ∀ v ∈ items, IsWhole v) : IsWhole (.list items)
  | object {fields : Fields Value} (h : ∀ e ∈ fields, IsWhole e.2) : IsWhole (.object fields)

/-- The value is what some JSON document stands for, and its numbers are whole. -/
structure Value.IsJson (v : Value) : Prop where
  whole : v.IsWhole
  read : ∃ text, Json.read text = some v

namespace Json

/-! ## Numbers -/

theorem lt_ten_of_asciiDigit? {c : Char} {d : Nat} (h : Text.asciiDigit? c = some d) : d < 10 := by
  unfold Text.asciiDigit? at h
  split at h
  · next hdigit =>
    have hlow : ('0' : Char).toNat ≤ c.toNat := hdigit.1
    have hhigh : c.toNat ≤ ('9' : Char).toNat := hdigit.2
    simp only [Char.reduceToNat] at hlow hhigh
    cases h
    omega
  · cases h

theorem lt_ten_of_spanDigits {text : List Char} : ∀ d ∈ (spanDigits text).1, d < 10 := by
  induction text with
  | nil => exact nofun
  | cons c rest ih =>
    intro d hd
    unfold spanDigits at hd
    split at hd
    · next d' hdigit =>
      rcases List.mem_cons.1 hd with rfl | hd
      · exact lt_ten_of_asciiDigit? hdigit
      · exact ih d hd
    · cases hd

theorem IsNumeral.isTooLong_eq {ds : List Nat} {n : Nat} (h : IsNumeral ds n)
    (hfits : ¬ Text.digitLimit < ds.length) : Text.isTooLong n = false := by
  rw [Text.isTooLong, Int.natAbs_natCast, h.length_digits]
  exact decide_eq_false hfits

theorem isTooLong_neg (n : Int) : Text.isTooLong (-n) = Text.isTooLong n := by
  rw [Text.isTooLong, Int.natAbs_neg, Text.isTooLong]

/-- A number that is read is whole with few enough digits, or a double. -/
theorem isReadable_of_readMagnitude {negative : Bool} {text rest : List Char} {v : Value}
    (h : readMagnitude negative text = some (v, rest)) : v.IsReadable := by
  have hten : ∀ d ∈ (spanDigits text).1, d < 10 := lt_ten_of_spanDigits
  unfold readMagnitude at h
  split at h
  · cases h
  · cases h
  · next whole after hnil hzero hspan =>
    obtain ⟨⟨fraction, after⟩, -, h⟩ := Option.bind_eq_some_iff.1 h
    obtain ⟨⟨exponent?, after⟩, -, h⟩ := Option.bind_eq_some_iff.1 h
    dsimp only at h
    split at h
    · split at h
      · cases h
      · next hfits =>
        cases h
        have hnumeral : IsNumeral whole (Text.digitsValue whole) := by
          rw [hspan] at hten
          refine ⟨hten, rfl, ?_⟩
          cases whole with
          | nil => exact absurd rfl hnil
          | cons d more =>
            refine ⟨d, more, rfl, fun hd => ?_⟩
            cases more with
            | nil => rfl
            | cons e more => exact absurd (by rw [hd]) (hzero e more)
        have hlength := hnumeral.isTooLong_eq hfits
        cases negative with
        | false => exact .int hlength
        | true => exact .int ((isTooLong_neg _).trans hlength)
    · cases h
      exact .double _

theorem isReadable_of_readSize {negative : Bool} {text rest : List Char} {v : Value}
    (h : readSize negative text = some (v, rest)) : v.IsReadable := by
  unfold readSize at h
  split at h
  · cases h
    exact .double _
  · exact isReadable_of_readMagnitude h

/-! ## Values -/

theorem isReadable_ofList {fields : List (String × Value)}
    (h : ∀ e ∈ fields, Value.IsReadable e.2) :
    (Value.object (Fields.ofList fields)).IsReadable := by
  have hempty : (Fields.names ([] : Fields Value)).Nodup := List.nodup_nil
  refine .object (Fields.nodup_merge hempty fields) fun e he => ?_
  rcases Fields.mem_merge he with hnil | he
  · cases hnil
  · exact h e he

/-- What is read with this much fuel has that shape, be it a value, the items of a list or the
fields of an object.  Each of the three is read by means of the others, so they go together. -/
structure ReadsReadable (fuel : Nat) : Prop where
  value : ∀ {text v rest}, readValue fuel text = some (v, rest) → v.IsReadable
  items : ∀ {text items rest}, readItems fuel text = some (items, rest) →
    ∀ v ∈ items, Value.IsReadable v
  fields : ∀ {text fields rest}, readFields fuel text = some (fields, rest) →
    ∀ e ∈ fields, Value.IsReadable e.2

namespace ReadsReadable

variable {fuel : Nat} (hreads : ReadsReadable fuel) {text rest : List Char}

include hreads

theorem value_succ {v : Value} (h : readValue (fuel + 1) text = some (v, rest)) :
    v.IsReadable := by
  unfold readValue at h
  split at h
  · cases h; exact .null
  · cases h; exact .bool true
  · cases h; exact .bool false
  · obtain ⟨⟨cs, after⟩, -, h⟩ := Option.map_eq_some_iff.1 h
    cases h
    exact .text _
  · split at h
    · cases h; exact .list (List.forall_mem_nil _)
    · obtain ⟨⟨items, after⟩, hread, h⟩ := Option.map_eq_some_iff.1 h
      cases h
      exact .list (hreads.items hread)
  · split at h
    · cases h; exact .object List.nodup_nil (List.forall_mem_nil _)
    · obtain ⟨⟨fields, after⟩, hread, h⟩ := Option.map_eq_some_iff.1 h
      cases h
      exact isReadable_ofList (hreads.fields hread)
  · cases h; exact .double _
  · exact isReadable_of_readSize h
  · exact isReadable_of_readSize h

theorem items_succ {items : List Value} (h : readItems (fuel + 1) text = some (items, rest)) :
    ∀ v ∈ items, Value.IsReadable v := by
  unfold readItems at h
  obtain ⟨⟨v, after⟩, hread, h⟩ := Option.bind_eq_some_iff.1 h
  have hv := hreads.value hread
  dsimp only at h
  split at h
  · obtain ⟨⟨items, after⟩, hread, h⟩ := Option.map_eq_some_iff.1 h
    cases h
    exact List.forall_mem_cons.2 ⟨hv, hreads.items hread⟩
  · cases h
    exact List.forall_mem_singleton.2 hv
  · cases h

theorem fields_succ {fields : List (String × Value)}
    (h : readFields (fuel + 1) text = some (fields, rest)) :
    ∀ e ∈ fields, Value.IsReadable e.2 := by
  unfold readFields at h
  split at h
  · obtain ⟨⟨cs, after⟩, -, h⟩ := Option.bind_eq_some_iff.1 h
    dsimp only at h
    split at h
    · obtain ⟨⟨v, after⟩, hread, h⟩ := Option.bind_eq_some_iff.1 h
      have hv := hreads.value hread
      dsimp only at h
      split at h
      · obtain ⟨⟨fields, after⟩, hread, h⟩ := Option.map_eq_some_iff.1 h
        cases h
        exact List.forall_mem_cons.2 ⟨hv, hreads.fields hread⟩
      · cases h
        exact List.forall_mem_singleton.2 hv
      · cases h
    · cases h
  · cases h

end ReadsReadable

theorem readsReadable (fuel : Nat) : ReadsReadable fuel := by
  induction fuel with
  | zero => exact ⟨nofun, nofun, nofun⟩
  | succ fuel ih => exact ⟨ih.value_succ, ih.items_succ, ih.fields_succ⟩

theorem isReadable_of_read {text : List Char} {v : Value} (h : read text = some v) :
    v.IsReadable := by
  obtain ⟨⟨v', rest⟩, hread, h⟩ := Option.bind_eq_some_iff.1 h
  dsimp only at h
  split at h
  · cases h
    exact (readsReadable _).value hread
  · cases h

theorem read_write {v : Value} (h : v.IsDocument) : read (write v) = some v := by
  have hread := readsBack h
    (show (write v).length ≤ 2 * (write v).length + 1 by omega) isBoundary_nil
  rw [List.append_nil] at hread
  rw [read, hread]
  rfl

end Json

namespace Value

theorem IsReadable.isDocument {v : Value} (h : v.IsReadable) (hwhole : v.IsWhole) :
    v.IsDocument := by
  induction h with
  | null => exact .null
  | bool b => exact .bool b
  | int hn => exact .int hn
  | double x => cases hwhole
  | text s => exact .text s
  | list _ ih =>
    cases hwhole with
    | list hall => exact .list fun v hv => ih v hv (hall v hv)
  | object hnames _ ih =>
    cases hwhole with
    | object hall => exact .object hnames fun e he => ih e he (hall e he)

theorem IsDocument.isWhole {v : Value} (h : v.IsDocument) : v.IsWhole := by
  induction h with
  | null => exact .null
  | bool b => exact .bool b
  | int _ => exact .int _
  | text s => exact .text s
  | list _ ih => exact .list ih
  | object _ _ ih => exact .object ih

/-- The documents are the values with whole numbers that are read from some text, so nothing is left
out by their shape. -/
theorem isDocument_iff {v : Value} : v.IsDocument ↔ v.IsJson := by
  constructor
  · exact fun h => ⟨h.isWhole, Json.write v, Json.read_write h⟩
  · rintro ⟨hwhole, text, hread⟩
    exact (Json.isReadable_of_read hread).isDocument hwhole

/-! ## What is not written -/

theorem hasTooLongItem_eq (items : List Value) :
    hasTooLongItem items = items.any fun v => v.hasTooLong := by
  induction items with
  | nil => rfl
  | cons v rest ih => rw [hasTooLongItem, ih, List.any_cons]

theorem hasTooLongField_eq (fields : List (String × Value)) :
    hasTooLongField fields = fields.any fun e => e.2.hasTooLong := by
  induction fields with
  | nil => rfl
  | cons e rest ih => rw [hasTooLongField, ih, List.any_cons]

theorem hasTooLong_object {fields : Fields Value} {e : String × Value} (he : e ∈ fields)
    (hlong : e.2.hasTooLong = true) : (Value.object fields).hasTooLong = true := by
  rw [hasTooLong, hasTooLongField_eq]
  exact List.any_eq_true.2 ⟨e, he, hlong⟩

theorem IsDocument.hasTooLong_eq {v : Value} (h : v.IsDocument) : v.hasTooLong = false := by
  induction h with
  | null => rfl
  | bool b => rfl
  | int hn => exact hn
  | text s => rfl
  | list _ ih =>
    rw [hasTooLong, hasTooLongItem_eq, List.any_eq_false]
    exact fun v hv => Bool.not_eq_true _ ▸ ih v hv
  | object _ _ ih =>
    rw [hasTooLong, hasTooLongField_eq, List.any_eq_false]
    exact fun e he => Bool.not_eq_true _ ▸ ih e he

/-- What keeps a value from being written if it is too long and nothing else is wrong with it. -/
def refusal? (tooLong : Bool) : Option Malformed :=
  if tooLong then some .tooManyDigits else none

theorem refusal?_or (a b : Bool) : (refusal? a).or (refusal? b) = refusal? (a || b) := by
  cases a <;> rfl

theorem unwritableItem?_eq {items : List Value}
    (h : ∀ v ∈ items, Json.unwritable? v = refusal? v.hasTooLong) :
    Json.unwritableItem? items = refusal? (hasTooLongItem items) := by
  induction items with
  | nil => rfl
  | cons v rest ih =>
    rw [Json.unwritableItem?, h v List.mem_cons_self,
      ih fun w hw => h w (List.mem_cons_of_mem _ hw), refusal?_or, hasTooLongItem]

theorem unwritableField?_eq {fields : List (String × Value)}
    (h : ∀ e ∈ fields, Json.unwritable? e.2 = refusal? e.2.hasTooLong) :
    Json.unwritableField? fields = refusal? (hasTooLongField fields) := by
  induction fields with
  | nil => rfl
  | cons e rest ih =>
    obtain ⟨k, v⟩ := e
    rw [Json.unwritableField?, h (k, v) List.mem_cons_self,
      ih fun e he => h e (List.mem_cons_of_mem _ he), refusal?_or, hasTooLongField]

/-- Where numbers are whole, nothing but their length keeps a value from being written. -/
theorem IsWhole.unwritable?_eq {v : Value} (h : v.IsWhole) :
    Json.unwritable? v = refusal? v.hasTooLong := by
  induction h with
  | null => rfl
  | bool b => rfl
  | int n => rfl
  | text s => rfl
  | list _ ih => exact unwritableItem?_eq ih
  | object _ ih => exact unwritableField?_eq ih

theorem IsDocument.unwritable?_eq_none {v : Value} (h : v.IsDocument) :
    Json.unwritable? v = none := by
  rw [h.isWhole.unwritable?_eq, h.hasTooLong_eq]
  rfl

end Value

end SecretMirror
