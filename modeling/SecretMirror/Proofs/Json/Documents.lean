import SecretMirror.Proofs.Json.Texts
import SecretMirror.Proofs.Overriding
import Mathlib.Tactic.IntervalCases

/-!
# Reading written documents

A document (`Value.IsDocument`) is a value without byte strings and views whose numbers are whole
and whose objects name each field once.  Written as JSON it is printable ASCII (`isPlain_write`) and
reads back to itself (`readsBack`, `read_write_line`).

The reader descends by fuel, and a value needs no more of it than it has characters
(`Value.ReadsBack`).  What follows a value decides where a number ends, so it has to be a boundary;
in a list, in an object and at the end of a line it is.
-/

namespace SecretMirror

/-- The value is what a JSON document with whole numbers stands for: it is free of byte strings and
views, its objects name each field once, and no number in it has too many digits to be read. -/
inductive Value.IsDocument : Value → Prop where
  | null : IsDocument .null
  | bool (b : Bool) : IsDocument (.bool b)
  | int {n : Int} (hn : Text.isTooLong n = false) : IsDocument (.int n)
  | text (s : String) : IsDocument (.text s)
  | list {items : List Value} (h : ∀ v ∈ items, IsDocument v) : IsDocument (.list items)
  | object {fields : Fields Value} (hnames : fields.names.Nodup)
    (h : ∀ e ∈ fields, IsDocument e.2) : IsDocument (.object fields)

namespace Json

/-! ## What is written -/

theorem writeItems_cons (v w : Value) (rest : List Value) :
    writeItems (v :: w :: rest) = write v ++ ',' :: ' ' :: writeItems (w :: rest) := by
  rw [writeItems]
  exact List.cons_ne_nil w rest

theorem writeFields_cons (k : String) (v : Value) (e : String × Value)
    (rest : List (String × Value)) : writeFields ((k, v) :: e :: rest) =
      writeText k ++ ':' :: ' ' :: write v ++ ',' :: ' ' :: writeFields (e :: rest) := by
  rw [writeFields]
  exact List.cons_ne_nil e rest

theorem isPlain_writeItems {items : List Value} (h : ∀ v ∈ items, IsPlain (write v)) :
    IsPlain (writeItems items) := by
  have hcomma : IsPlain [',', ' '] := isPlain_of_all rfl
  induction items with
  | nil => exact nofun
  | cons v rest ih =>
    cases rest with
    | nil => exact h v List.mem_cons_self
    | cons w rest =>
      rw [writeItems_cons]
      exact (h v List.mem_cons_self).append (hcomma.append
        (ih fun u hu => h u (List.mem_cons_of_mem _ hu)))

theorem isPlain_writeFields {fields : List (String × Value)}
    (h : ∀ e ∈ fields, IsPlain (write e.2)) : IsPlain (writeFields fields) := by
  have hcomma : IsPlain [',', ' '] := isPlain_of_all rfl
  have hcolon : IsPlain [':', ' '] := isPlain_of_all rfl
  have hfield : ∀ e ∈ fields, IsPlain (writeText e.1 ++ ':' :: ' ' :: write e.2) := fun e he =>
    (isPlain_writeText e.1).append (hcolon.append (h e he))
  clear h
  induction fields with
  | nil => exact nofun
  | cons e rest ih =>
    obtain ⟨k, v⟩ := e
    cases rest with
    | nil => exact hfield (k, v) List.mem_cons_self
    | cons e rest =>
      rw [writeFields_cons]
      exact (hfield (k, v) List.mem_cons_self).append (hcomma.append
        (ih fun u hu => hfield u (List.mem_cons_of_mem _ hu)))

/-- A document is written in printable ASCII, so it holds no character that could end a line. -/
theorem isPlain_write {v : Value} (h : v.IsDocument) : IsPlain (write v) := by
  induction h with
  | null => exact isPlain_of_all rfl
  | bool b => cases b <;> exact isPlain_of_all rfl
  | int _ => exact isPlain_integerDigits _
  | text s => exact isPlain_writeText s
  | list _ ih =>
    have hopen : IsPlain ['['] := isPlain_of_all rfl
    have hclose : IsPlain [']'] := isPlain_of_all rfl
    rw [write]
    exact (hopen.append (isPlain_writeItems ih)).append hclose
  | object _ _ ih =>
    have hopen : IsPlain ['\x7b'] := isPlain_of_all rfl
    have hclose : IsPlain ['\x7d'] := isPlain_of_all rfl
    rw [write]
    exact (hopen.append (isPlain_writeFields ih)).append hclose

/-- What a document is written with first.  It is no gap, so it is not skipped, and it does not
close an array; the reader tells by it that another item follows. -/
structure IsOpening (c : Char) : Prop where
  not_gap : isGap c = false
  not_closing : c ≠ ']'

theorem isOpening_digitChar {d : Nat} (h : d < 10) : IsOpening (Text.digitChar d) := by
  have hall : ∀ d < 10, isGap (Text.digitChar d) = false ∧ Text.digitChar d ≠ ']' := by decide
  exact ⟨(hall d h).1, (hall d h).2⟩

theorem exists_digits_cons (n : Nat) :
    ∃ d more, d < 10 ∧ Text.digits n = Text.digitChar d :: more := by
  obtain ⟨ds, hds, hnumeral⟩ := digits_eq n
  obtain ⟨d, more, rfl, -⟩ := hnumeral.leading
  exact ⟨d, more.map Text.digitChar, hnumeral.lt_ten d List.mem_cons_self, hds⟩

theorem exists_write_cons {v : Value} (h : v.IsDocument) :
    ∃ c tail, write v = c :: tail ∧ IsOpening c := by
  cases h with
  | null => exact ⟨_, _, rfl, by decide, by decide⟩
  | bool b => cases b <;> exact ⟨_, _, rfl, by decide, by decide⟩
  | @int n _ =>
    cases n with
    | ofNat n =>
      obtain ⟨d, more, hd, hdigits⟩ := exists_digits_cons n
      exact ⟨_, more, hdigits, isOpening_digitChar hd⟩
    | negSucc n => exact ⟨_, _, rfl, by decide, by decide⟩
  | text s => exact ⟨_, _, rfl, by decide, by decide⟩
  | list _ => exact ⟨_, _, by rw [write]; rfl, by decide, by decide⟩
  | object _ _ => exact ⟨_, _, by rw [write]; rfl, by decide, by decide⟩

/-! ## The reader, by what stands first -/

@[simp] theorem skipGap_blank (text : List Char) : skipGap (' ' :: text) = skipGap text := rfl

theorem skipGap_of_not_gap {c : Char} (h : isGap c = false) (text : List Char) :
    skipGap (c :: text) = c :: text := by
  simp [skipGap, h]

theorem readValue_blank (fuel : Nat) (text : List Char) :
    readValue fuel (' ' :: text) = readValue fuel text := by
  cases fuel with
  | zero => rfl
  | succ fuel => rw [readValue, readValue, skipGap_blank]

theorem readItems_blank (fuel : Nat) (text : List Char) :
    readItems fuel (' ' :: text) = readItems fuel text := by
  cases fuel with
  | zero => rfl
  | succ fuel => rw [readItems, readItems, readValue_blank]

theorem readFields_blank (fuel : Nat) (text : List Char) :
    readFields fuel (' ' :: text) = readFields fuel text := by
  cases fuel with
  | zero => rfl
  | succ fuel => rw [readFields, readFields, skipGap_blank]

theorem readValue_digit {d : Nat} (h : d < 10) (fuel : Nat) (more : List Char) :
    readValue (fuel + 1) (Text.digitChar d :: more) =
      readMagnitude false (Text.digitChar d :: more) := by
  interval_cases d <;> rfl

theorem readValue_sign {d : Nat} (h : d < 10) (fuel : Nat) (more : List Char) :
    readValue (fuel + 1) ('-' :: Text.digitChar d :: more) =
      readMagnitude true (Text.digitChar d :: more) := by
  interval_cases d <;> rfl

/-! ## There and back -/

/-- Written in front of a boundary, the value reads back, and no more fuel is needed than it has
characters. -/
def ReadsBack (v : Value) : Prop :=
  ∀ ⦃fuel rest⦄, (write v).length ≤ fuel → IsBoundary rest →
    readValue fuel (write v ++ rest) = some (v, rest)

theorem readsBack_int {n : Int} (hn : Text.isTooLong n = false) : ReadsBack (.int n) := by
  intro fuel rest hfuel hrest
  cases n with
  | ofNat n =>
    obtain ⟨d, more, hd, hdigits⟩ := exists_digits_cons n
    have hwrite : write (.int (.ofNat n)) = Text.digits n := rfl
    have hread := readMagnitude_digits false (n := n) hn hrest
    rw [hwrite] at hfuel ⊢
    rw [hdigits] at hfuel hread ⊢
    obtain ⟨fuel, rfl⟩ : ∃ k, fuel = k + 1 := Nat.exists_eq_add_one.2 (by simp at hfuel; omega)
    exact (readValue_digit hd fuel _).trans hread
  | negSucc n =>
    obtain ⟨d, more, hd, hdigits⟩ := exists_digits_cons (n + 1)
    have hwrite : write (.int (.negSucc n)) = '-' :: Text.digits (n + 1) := rfl
    have hread := readMagnitude_digits true (n := n + 1) hn hrest
    rw [hwrite] at hfuel ⊢
    rw [hdigits] at hfuel hread ⊢
    obtain ⟨fuel, rfl⟩ : ∃ k, fuel = k + 1 := Nat.exists_eq_add_one.2 (by simp at hfuel; omega)
    exact (readValue_sign hd fuel _).trans hread

theorem readsBack_text (s : String) : ReadsBack (.text s) := by
  intro fuel rest hfuel hrest
  have hwrite : write (.text s) ++ rest =
      '\x22' :: (s.toList.flatMap writeChar ++ '\x22' :: rest) := by
    simp [write, writeText]
  obtain ⟨fuel, rfl⟩ : ∃ k, fuel = k + 1 :=
    Nat.exists_eq_add_one.2 (by simp [write, writeText] at hfuel; omega)
  have hread : readValue (fuel + 1) ('\x22' :: (s.toList.flatMap writeChar ++ '\x22' :: rest)) =
      (readChars (s.toList.flatMap writeChar ++ '\x22' :: rest)).map fun found =>
        (.text (String.ofList found.1), found.2) := rfl
  rw [hwrite, hread, readChars_flatMap]
  simp only [Option.map_some, String.ofList_toList]

/-- The items of a list are read up to its closing bracket. -/
theorem readItems_write {items : List Value} (hne : items ≠ []) (h : ∀ v ∈ items, ReadsBack v)
    {fuel : Nat} (hfuel : (writeItems items).length < fuel) (rest : List Char) :
    readItems fuel (writeItems items ++ ']' :: rest) = some (items, rest) := by
  induction items generalizing fuel with
  | nil => exact absurd rfl hne
  | cons v items ih =>
    obtain ⟨fuel, rfl⟩ : ∃ k, fuel = k + 1 := Nat.exists_eq_add_one.2 (by omega)
    cases items with
    | nil =>
      have hv : readValue fuel (writeItems [v] ++ ']' :: rest) = some (v, ']' :: rest) :=
        h v List.mem_cons_self (Nat.le_of_lt_succ hfuel) (isBoundary_bracket rest)
      rw [readItems, hv]
      rfl
    -- A comma follows the first item, which is a boundary, and the others are read with less fuel.
    | cons w items =>
      rw [writeItems_cons] at hfuel ⊢
      simp only [List.length_append, List.length_cons] at hfuel
      have hv : readValue fuel (write v ++ ',' :: ' ' :: (writeItems (w :: items) ++ ']' :: rest)) =
          some (v, ',' :: ' ' :: (writeItems (w :: items) ++ ']' :: rest)) :=
        h v List.mem_cons_self (by omega) (isBoundary_comma _)
      have htail : readItems fuel (writeItems (w :: items) ++ ']' :: rest) =
          some (w :: items, rest) :=
        ih (List.cons_ne_nil w items) (fun u hu => h u (List.mem_cons_of_mem _ hu)) (by omega)
      rw [readItems, List.append_assoc, List.cons_append, List.cons_append, hv]
      show (readItems fuel (' ' :: (writeItems (w :: items) ++ ']' :: rest))).map _ = _
      rw [readItems_blank, htail]
      rfl

theorem readFields_field (k : String) {v : Value} (h : ReadsBack v) {fuel : Nat}
    (hfuel : (write v).length ≤ fuel) {rest : List Char} (hrest : IsBoundary rest) :
    readFields (fuel + 1) (writeText k ++ ':' :: ' ' :: write v ++ rest) =
      match skipGap rest with
      | ',' :: rest => (readFields fuel rest).map fun (fields, rest) => ((k, v) :: fields, rest)
      | '\x7d' :: rest => some ([(k, v)], rest)
      | _ => none := by
  have hwrite : writeText k ++ ':' :: ' ' :: write v ++ rest = '\x22' ::
      (k.toList.flatMap writeChar ++ '\x22' :: (':' :: ' ' :: (write v ++ rest))) := by
    simp [writeText]
  have hcolon : ∀ text, skipGap (':' :: text) = ':' :: text := fun _ => rfl
  have hquote : ∀ text, skipGap ('\x22' :: text) = '\x22' :: text := fun _ => rfl
  rw [hwrite, readFields, hquote]
  simp only [readChars_flatMap, Option.bind_some, hcolon, readValue_blank, String.ofList_toList]
  rw [h hfuel hrest]
  rfl

/-- The fields of an object are read up to its closing brace, in their order. -/
theorem readFields_write {fields : List (String × Value)} (hne : fields ≠ [])
    (h : ∀ e ∈ fields, ReadsBack e.2) {fuel : Nat} (hfuel : (writeFields fields).length < fuel)
    (rest : List Char) :
    readFields fuel (writeFields fields ++ '\x7d' :: rest) = some (fields, rest) := by
  induction fields generalizing fuel with
  | nil => exact absurd rfl hne
  | cons e fields ih =>
    obtain ⟨k, v⟩ := e
    obtain ⟨fuel, rfl⟩ : ∃ k, fuel = k + 1 := Nat.exists_eq_add_one.2 (by omega)
    have hv : ReadsBack v := h (k, v) List.mem_cons_self
    cases fields with
    | nil =>
      have hwrite : writeFields [(k, v)] = writeText k ++ ':' :: ' ' :: write v := rfl
      rw [hwrite] at hfuel ⊢
      simp only [List.length_append, List.length_cons] at hfuel
      have hshort : (write v).length ≤ fuel := by omega
      rw [readFields_field k hv hshort (isBoundary_brace rest)]
      rfl
    | cons e fields =>
      rw [writeFields_cons] at hfuel ⊢
      simp only [List.length_append, List.length_cons] at hfuel
      have hshort : (write v).length ≤ fuel := by omega
      have htail : readFields fuel (writeFields (e :: fields) ++ '\x7d' :: rest) =
          some (e :: fields, rest) :=
        ih (List.cons_ne_nil e fields) (fun u hu => h u (List.mem_cons_of_mem _ hu)) (by omega)
      rw [List.append_assoc, List.cons_append, List.cons_append,
        readFields_field k hv hshort (isBoundary_comma _)]
      show (readFields fuel (' ' :: (writeFields (e :: fields) ++ '\x7d' :: rest))).map _ = _
      rw [readFields_blank, htail]
      rfl

theorem readsBack_list {items : List Value} (hdocuments : ∀ v ∈ items, v.IsDocument)
    (h : ∀ v ∈ items, ReadsBack v) : ReadsBack (.list items) := by
  intro fuel rest hfuel hrest
  rw [write] at hfuel ⊢
  simp only [List.length_append, List.length_cons, List.length_nil] at hfuel
  obtain ⟨fuel, rfl⟩ : ∃ k, fuel = k + 1 := Nat.exists_eq_add_one.2 (by omega)
  cases items with
  | nil => rfl
  | cons v items =>
    obtain ⟨c, tail, hwrite, hopening⟩ : ∃ c tail, writeItems (v :: items) = c :: tail ∧
        IsOpening c := by
      obtain ⟨c, tail, hv, hc⟩ := exists_write_cons (hdocuments v List.mem_cons_self)
      cases items with
      | nil => exact ⟨c, tail, hv, hc⟩
      | cons w items => exact ⟨c, _, by rw [writeItems_cons, hv]; rfl, hc⟩
    have hitems : readItems fuel (writeItems (v :: items) ++ ']' :: rest) =
        some (v :: items, rest) := readItems_write (List.cons_ne_nil v items) h (by omega) rest
    rw [hwrite] at hitems ⊢
    simp only [List.cons_append, List.append_assoc, List.nil_append] at hitems ⊢
    have hbracket : ∀ text, skipGap ('[' :: text) = '[' :: text := fun _ => rfl
    rw [readValue, hbracket]
    simp only [skipGap_of_not_gap hopening.not_gap]
    split
    · next heq =>
      rw [(List.cons.inj heq).1] at hopening
      exact absurd rfl hopening.not_closing
    · rw [hitems]
      rfl

theorem readsBack_object {fields : Fields Value} (hnames : fields.names.Nodup)
    (h : ∀ e ∈ fields, ReadsBack e.2) : ReadsBack (.object fields) := by
  intro fuel rest hfuel hrest
  rw [write] at hfuel ⊢
  simp only [List.length_append, List.length_cons, List.length_nil] at hfuel
  obtain ⟨fuel, rfl⟩ : ∃ k, fuel = k + 1 := Nat.exists_eq_add_one.2 (by omega)
  cases fields with
  | nil => rfl
  | cons e fields =>
    obtain ⟨tail, hwrite⟩ : ∃ tail, writeFields (e :: fields) = '\x22' :: tail := by
      obtain ⟨k, v⟩ := e
      cases fields with
      | nil => exact ⟨_, rfl⟩
      | cons e fields => exact ⟨_, by rw [writeFields_cons]; rfl⟩
    have hfields : readFields fuel (writeFields (e :: fields) ++ '\x7d' :: rest) =
        some (e :: fields, rest) := readFields_write (List.cons_ne_nil e fields) h (by omega) rest
    have hopen : readValue (fuel + 1) ('\x7b' :: ('\x22' :: (tail ++ '\x7d' :: rest))) =
        (readFields fuel ('\x22' :: (tail ++ '\x7d' :: rest))).map fun (fields, rest) =>
          (.object (Fields.ofList fields), rest) := rfl
    rw [hwrite] at hfields ⊢
    simp only [List.cons_append, List.append_assoc, List.nil_append] at hfields ⊢
    rw [hopen, hfields]
    simp only [Option.map_some, Fields.ofList_of_nodup hnames]

/-- Every document reads back, by induction on how it is built. -/
theorem readsBack {v : Value} (h : v.IsDocument) : ReadsBack v := by
  induction h with
  | null =>
    intro fuel rest hfuel _
    obtain ⟨fuel, rfl⟩ : ∃ k, fuel = k + 1 :=
      Nat.exists_eq_add_one.2 (Nat.lt_of_lt_of_le (by decide) hfuel)
    rfl
  | bool b =>
    intro fuel rest hfuel _
    obtain ⟨fuel, rfl⟩ : ∃ k, fuel = k + 1 :=
      Nat.exists_eq_add_one.2 (Nat.lt_of_lt_of_le (by cases b <;> decide) hfuel)
    cases b <;> rfl
  | int hn => exact readsBack_int hn
  | text s => exact readsBack_text s
  | list h ih => exact readsBack_list h ih
  | object hnames _ ih => exact readsBack_object hnames ih

/-- A document reads back from a line that holds it and nothing else. -/
theorem read_write_line {v : Value} (h : v.IsDocument) :
    read (write v ++ ['\n']) = some v := by
  have hfuel : (write v).length ≤ 2 * (write v ++ ['\n']).length + 1 := by
    rw [List.length_append]
    omega
  rw [read, readsBack h hfuel (isBoundary_feed [])]
  rfl

end Json

end SecretMirror
