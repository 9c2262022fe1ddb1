import Mathlib.Data.List.TakeWhile
import SecretMirror.Proofs.Redaction.Sweeps

/-!
# What redaction leaves behind

The assignments that a sweep looks for can be described without it (`Assigns`): a name, a sign,
white space, and a value up to the next character that ends one.  A text is redacted for a field if
each assignment to the field, wherever it begins, has the mark as its value (`IsRedacted`).

The sweep for a field leaves a text redacted for that field, and it keeps what the sweeps before it
have done (`isRedacted_sweep`).  An assignment in what comes out begins either in a replacement or
at a character that was kept:

* In a replacement, the name and the sign are the replacement's own, and the mark is behind them
  (`eq_mark_of_replacement`).
* At a kept character, no replacement begins in the name: it would bring the name of its field
  along, and no field's name is the end of another's (`eq_of_isSuffix`).  So the name and the sign
  were in the text before the sweep, and behind them was the mark, or nothing; the sweep does not
  change either (`valueBehind_sweep`).

So the whole redaction is complete on its own output, in whichever order it takes the fields
(`redactWith_leaves_marks`).
-/

namespace SecretMirror.Redaction

variable {field other text v s : List Char}

/-! ## Assignments -/

/-- The name of a field in any case, possibly between two equal quotes. -/
def IsNamed (field head : List Char) : Prop :=
  ∃ quote name, head = quote ++ (name ++ quote) ∧
    (quote = [] ∨ ∃ c, isQuote c = true ∧ quote = [c]) ∧ name.map Text.small = field

/-- The text begins with an assignment of `v` to a field, and `s` is what follows.  The value is
taken as far as it goes, so `s` is empty or begins with a character that ends a value. -/
def Assigns (field text v s : List Char) : Prop :=
  ∃ head sep w, text = head ++ sep :: (w ++ (v ++ s)) ∧ IsNamed field head ∧
    (sep = ':' ∨ sep = '=') ∧ (∀ c ∈ w, Text.isBlank c = true) ∧ v ≠ [] ∧
    (∀ c ∈ v, isValueChar c = true) ∧ EndsValue s

/-- Wherever an assignment to a field begins in a text, its value is the mark. -/
def IsRedacted (field text : List Char) : Prop :=
  ∀ t v s, t <:+ text → Assigns field t v s → v = mark

example : ¬ IsRedacted "key".toList "key: v".toList := by
  intro h
  have hassigns : Assigns "key".toList "key: v".toList "v".toList [] := by
    refine ⟨"key".toList, ':', [' '], rfl, ⟨[], "key".toList, rfl, .inl rfl, by decide⟩, .inl rfl,
      List.forall_mem_singleton.2 rfl, by decide, List.forall_mem_singleton.2 rfl, endsValue_nil⟩
  exact absurd (h _ _ _ List.suffix_rfl hassigns) (by decide)

theorem IsRedacted.of_isSuffix (h : IsRedacted field text) {t : List Char} (ht : t <:+ text) :
    IsRedacted field t :=
  fun _ v s hsuffix => h _ v s (hsuffix.trans ht)

/-! ## The value behind a sign -/

/-- What stands behind a sign as a value; nothing if there is none. -/
def valueBehind (text : List Char) : List Char :=
  (text.dropWhile Text.isBlank).takeWhile isValueChar

theorem not_isBlank_of_isValueChar {c : Char} (h : isValueChar c = true) :
    Text.isBlank c = false := by
  by_contra hblank
  rw [Bool.not_eq_false] at hblank
  rw [isValueChar, hblank] at h
  cases h

theorem dropWhile_gap {w x : List Char} (hw : ∀ c ∈ w, Text.isBlank c = true)
    (hx : ∀ c ∈ x.head?, Text.isBlank c = false) : (w ++ x).dropWhile Text.isBlank = x := by
  rw [List.dropWhile_append_of_pos hw]
  cases x with
  | nil => rfl
  | cons c x => rw [List.dropWhile_cons, hx c rfl, if_neg Bool.false_ne_true]

theorem valueBehind_append {w : List Char} (hw : ∀ c ∈ w, Text.isBlank c = true)
    (hne : ∀ c ∈ (v ++ s).head?, Text.isBlank c = false)
    (hv : ∀ c ∈ v, isValueChar c = true) (hs : EndsValue s) :
    valueBehind (w ++ (v ++ s)) = v := by
  rw [valueBehind, dropWhile_gap hw hne, takeWhile_value hv hs]

theorem head?_value (hne : v ≠ []) (hv : ∀ c ∈ v, isValueChar c = true) :
    ∀ c ∈ (v ++ s).head?, Text.isBlank c = false := by
  cases v with
  | nil => exact absurd rfl hne
  | cons c v =>
    rintro c' ⟨⟩
    exact not_isBlank_of_isValueChar (hv c (List.mem_cons_self ..))

theorem exists_valueBehind (text : List Char) :
    ∃ w s, text = w ++ (valueBehind text ++ s) ∧ (∀ c ∈ w, Text.isBlank c = true) ∧
      (∀ c ∈ (valueBehind text ++ s).head?, Text.isBlank c = false) ∧
      (∀ c ∈ valueBehind text, isValueChar c = true) ∧ EndsValue s := by
  have hgap := List.takeWhile_append_dropWhile (p := Text.isBlank) (l := text)
  have hvalue := List.takeWhile_append_dropWhile (p := isValueChar)
    (l := text.dropWhile Text.isBlank)
  refine ⟨text.takeWhile Text.isBlank, (text.dropWhile Text.isBlank).dropWhile isValueChar,
    ?_, ?_, ?_, ?_, ?_⟩
  · rw [valueBehind, hvalue, hgap]
  · exact fun c => List.mem_takeWhile_imp
  · rw [valueBehind, hvalue]
    intro c hc
    have hhead := List.head?_dropWhile_not Text.isBlank text
    rw [Option.mem_def] at hc
    rwa [hc] at hhead
  · exact fun c => List.mem_takeWhile_imp
  · intro c hc
    have hhead := List.head?_dropWhile_not isValueChar (text.dropWhile Text.isBlank)
    rw [Option.mem_def] at hc
    rwa [hc] at hhead

/-- An assignment, told apart at its sign: the name before it and the value behind it do not depend
on one another. -/
theorem assigns_iff : (∃ s, Assigns field text v s) ↔
    ∃ head sep rest, text = head ++ sep :: rest ∧ IsNamed field head ∧ (sep = ':' ∨ sep = '=') ∧
      v ≠ [] ∧ valueBehind rest = v := by
  constructor
  · rintro ⟨s, head, sep, w, rfl, hname, hsep, hw, hne, hv, hs⟩
    exact ⟨head, sep, _, rfl, hname, hsep, hne, valueBehind_append hw (head?_value hne hv) hv hs⟩
  · rintro ⟨head, sep, rest, rfl, hname, hsep, hne, rfl⟩
    obtain ⟨w, s, hrest, hw, -, hv, hs⟩ := exists_valueBehind rest
    exact ⟨s, head, sep, w, congrArg (head ++ sep :: ·) hrest, hname, hsep, hw, hne, hv, hs⟩

/-! ## Names -/

variable {head rest : List Char} {sep : Char} {n : Nat}

theorem afterWord?_eq_some_iff {word : List Char} : Text.afterWord? word text = some rest ↔
    ∃ name, text = name ++ rest ∧ name.map Text.small = word := by
  constructor
  · intro h
    induction word generalizing text with
    | nil =>
      cases h
      exact ⟨[], rfl, rfl⟩
    | cons w word ih =>
      cases text with
      | nil => cases h
      | cons c text =>
        rw [Text.afterWord?] at h
        split at h
        · rename_i hc
          obtain ⟨name, rfl, hname⟩ := ih h
          exact ⟨c :: name, rfl, by rw [List.map_cons, hc, hname]⟩
        · cases h
  · rintro ⟨name, rfl, rfl⟩
    induction name with
    | nil => rfl
    | cons c name ih =>
      rw [List.cons_append, List.map_cons, Text.afterWord?, if_pos rfl]
      exact ih

theorem IsNamed.ne_nil (hfield : field ∈ fields) (h : IsNamed field head) : head ≠ [] := by
  obtain ⟨quote, name, rfl, -, rfl⟩ := h
  have hname : name ≠ [] := by
    rintro rfl
    exact word_ne_nil (field_mem_words hfield) rfl
  simp [hname]

theorem IsNamed.not_isBorder (hfield : field ∈ fields) (h : IsNamed field head) :
    ∀ c ∈ head, isBorder c = false := by
  obtain ⟨quote, name, rfl, hquote, rfl⟩ := h
  intro c hc
  by_contra hborder
  rw [Bool.not_eq_false] at hborder
  have hnot : c ∉ quote := by
    rintro hmem
    rcases hquote with rfl | ⟨q, hq, rfl⟩
    · cases hmem
    · rw [List.mem_singleton] at hmem
      rw [← hmem, not_isQuote_of_isBorder hborder] at hq
      cases hq
  have hname : c ∈ name := by simpa [hnot] using hc
  exact small_not_mem_word (field_mem_words hfield) hborder (List.mem_map_of_mem hname)

theorem isQuote_small {c : Char} (h : isQuote c = true) : isQuote (Text.small c) = true := by
  simp only [isQuote, Bool.or_eq_true, beq_iff_eq] at h
  rcases h with rfl | rfl
  · rfl
  · rfl

/-- The stretch of an assignment is decided behind its name. -/
theorem assignmentStretch?_of_isNamed (hfield : field ∈ fields) (h : IsNamed field head)
    (rest : List Char) :
    assignmentStretch? field (head ++ rest) = (valueStretch? rest).map (head.length + ·) := by
  obtain ⟨quote, name, rfl, rfl | ⟨q, hq, rfl⟩, rfl⟩ := h
  · have hafter : Text.afterWord? (name.map Text.small) (name ++ rest) = some rest :=
      afterWord?_eq_some_iff.2 ⟨name, rfl, rfl⟩
    cases name with
    | nil => exact absurd rfl (word_ne_nil (field_mem_words hfield))
    | cons c name =>
      have hplain : isQuote c = false := by
        by_contra hquote
        rw [Bool.not_eq_false] at hquote
        have hsmall := not_isQuote_of_mem hfield (List.mem_cons_self ..)
        rw [isQuote_small hquote] at hsmall
        cases hsmall
      rw [List.nil_append, List.append_nil, List.cons_append,
        assignmentStretch?_of_not_isQuote hplain, ← List.cons_append, hafter, Option.bind_some,
        List.length_map]
  · have hafter : Text.afterWord? (name.map Text.small) (name ++ q :: rest) = some (q :: rest) :=
      afterWord?_eq_some_iff.2 ⟨name, rfl, rfl⟩
    have hsplit : [q] ++ (name ++ [q]) ++ rest = q :: (name ++ q :: rest) := by simp
    rw [hsplit, assignmentStretch?_of_quote hq hafter]
    simp

theorem exists_isNamed (h : assignmentStretch? field text = some n) :
    ∃ head rest m, text = head ++ rest ∧ IsNamed field head ∧ valueStretch? rest = some m ∧
      n = head.length + m := by
  cases text with
  | nil => cases h
  | cons c text =>
    -- A name may stand between quotes, and then both have to be the same.
    by_cases hc : isQuote c = true
    · cases hafter : Text.afterWord? field text with
      | none =>
        rw [assignmentStretch?_of_none hc hafter] at h
        cases h
      | some behind =>
        obtain ⟨name, rfl, rfl⟩ := afterWord?_eq_some_iff.1 hafter
        cases behind with
        | nil =>
          rw [assignmentStretch?, if_pos hc, hafter] at h
          cases h
        | cons d rest =>
          by_cases hd : d = c
          · subst hd
            rw [assignmentStretch?_of_quote hc hafter, Option.map_eq_some_iff] at h
            obtain ⟨m, hm, rfl⟩ := h
            refine ⟨d :: (name ++ [d]), rest, m, ?_, ⟨[d], name, rfl, ?_, rfl⟩, hm, ?_⟩
            · simp
            · exact .inr ⟨d, hc, rfl⟩
            · simp
          · rw [assignmentStretch?_of_ne_quote hc hafter hd] at h
            cases h
    · rw [Bool.not_eq_true] at hc
      rw [assignmentStretch?_of_not_isQuote hc, Option.map_eq_some_iff] at h
      obtain ⟨m, hbind, rfl⟩ := h
      obtain ⟨rest, hafter, hm⟩ := Option.bind_eq_some_iff.1 hbind
      obtain ⟨name, hname, rfl⟩ := afterWord?_eq_some_iff.1 hafter
      refine ⟨name, rest, m, hname, ⟨[], name, ?_, .inl rfl, rfl⟩, hm, ?_⟩
      · rw [List.append_nil, List.nil_append]
      · rw [List.length_map]

/-! ## Stretches -/

theorem valueStretch?_of_sign (hsep : sep = ':' ∨ sep = '=') (rest : List Char) :
    valueStretch? (sep :: rest) = if valueBehind rest = [] then none else
      some (1 + (rest.takeWhile Text.isBlank).length + (valueBehind rest).length) := by
  unfold valueStretch?
  simp only [if_pos hsep, List.isEmpty_iff]
  rfl

/-- What a sweep for a field looks for are the assignments to it. -/
theorem exists_stretch_of_assigns (hfield : field ∈ fields) (h : Assigns field text v s) :
    assignmentStretch? field text ≠ none := by
  obtain ⟨head, sep, rest, rfl, hname, hsep, hne, hvalue⟩ := assigns_iff.1 ⟨s, h⟩
  rw [← hvalue] at hne
  rw [assignmentStretch?_of_isNamed hfield hname, valueStretch?_of_sign hsep, if_neg hne]
  exact Option.some_ne_none _

/-- A stretch is part of the text, and a character that ends a value follows, or nothing. -/
theorem exists_of_assignmentStretch? (h : assignmentStretch? field text = some n) :
    ∃ x y, text = x ++ y ∧ x.length = n ∧ x ≠ [] ∧ EndsValue y := by
  obtain ⟨head, rest, m, rfl, hname, hm, rfl⟩ := exists_isNamed h
  cases rest with
  | nil => cases hm
  | cons sep rest =>
    by_cases hsep : sep = ':' ∨ sep = '='
    · rw [valueStretch?_of_sign hsep] at hm
      split at hm
      · cases hm
      · cases hm
        obtain ⟨w, s, hrest, hw, hne, hv, hs⟩ := exists_valueBehind rest
        have hgap : rest.takeWhile Text.isBlank = w := by
          rw [hrest, takeWhile_value hw hne]
        refine ⟨head ++ sep :: (w ++ valueBehind rest), s, ?_, ?_, ?_, hs⟩
        · rw [List.append_assoc, List.cons_append, List.append_assoc, ← hrest]
        · rw [hgap, List.length_append, List.length_cons, List.length_append]
          omega
        · simp
    · rw [valueStretch?_cons, if_neg hsep] at hm
      cases hm

/-! ## Sweeps as relations -/

/-- What a sweep makes of a text: it keeps a character at which no stretch begins, and it puts the
replacement in the place of a stretch.  This is the sweep without its count of characters to pass
over. -/
inductive Form.Sweeps (f : Form) : List Char → List Char → Prop
  | nil : f.Sweeps [] []
  | keep {c : Char} {l o : List Char} : f.stretch? (c :: l) = none → f.Sweeps l o →
      f.Sweeps (c :: l) (c :: o)
  | replace {x y o : List Char} : x ≠ [] → f.stretch? (x ++ y) = some x.length → f.Sweeps y o →
      f.Sweeps (x ++ y) (f.replacement ++ o)

theorem Form.Sweeps.eq_sweep {f : Form} {out : List Char} (h : f.Sweeps text out) :
    out = f.sweep 0 text := by
  induction h with
  | nil => rfl
  | keep hnone _ ih => rw [Form.sweep_of_none hnone, ih]
  | @replace x y o hne hstretch _ ih =>
    cases x with
    | nil => exact absurd rfl hne
    | cons c x =>
      have hsweep : f.sweep 0 (c :: (x ++ y)) = f.replacement ++ f.sweep x.length (x ++ y) :=
        Form.sweep_of_stretch hstretch
      rw [List.cons_append, hsweep, f.sweep_length, ih]

theorem sweeps_sweep (other text : List Char) :
    (assignmentForm other).Sweeps text ((assignmentForm other).sweep 0 text) := by
  -- A stretch is passed over as a whole, so the induction is on the length.
  induction hlength : text.length using Nat.strong_induction_on generalizing text with
  | _ n ih =>
    subst hlength
    cases text with
    | nil => exact .nil
    | cons c l =>
      cases hstretch : (assignmentForm other).stretch? (c :: l) with
      | none =>
        rw [Form.sweep_of_none hstretch]
        exact .keep hstretch (ih l.length (Nat.lt_succ_self _) l rfl)
      | some n =>
        have hstretch' : assignmentStretch? other (c :: l) = some n := hstretch
        obtain ⟨x, y, htext, rfl, hne, -⟩ := exists_of_assignmentStretch? hstretch'
        have hlt : y.length < (c :: l).length := by
          have hpos := List.length_pos_iff.2 hne
          rw [htext, List.length_append]
          omega
        rw [htext] at hstretch ⊢
        have hrest := Form.Sweeps.replace hne hstretch (ih y.length hlt y rfl)
        rw [hrest.eq_sweep] at hrest
        exact hrest

/-- A beginning of what comes out was there before, or a replacement begins in it. -/
theorem Form.Sweeps.of_append {f : Form} {out a b : List Char} (h : f.Sweeps text out)
    (hout : out = a ++ b) :
    (∃ rest, text = a ++ rest ∧ f.Sweeps rest b) ∨
      ∃ k m x, a = k ++ m ∧ m ≠ [] ∧ out = k ++ (f.replacement ++ x) := by
  induction h generalizing a with
  | nil =>
    obtain ⟨rfl, rfl⟩ := List.append_eq_nil_iff.1 hout.symm
    exact .inl ⟨[], rfl, .nil⟩
  | @keep c l o hnone hrest ih =>
    cases a with
    | nil =>
      subst hout
      exact .inl ⟨c :: l, rfl, .keep hnone hrest⟩
    | cons d a =>
      obtain ⟨rfl, ho⟩ := List.cons.inj hout
      rcases ih ho with ⟨rest, rfl, hsweeps⟩ | ⟨k, m, x, rfl, hne, hx⟩
      · exact .inl ⟨rest, rfl, hsweeps⟩
      · exact .inr ⟨c :: k, m, x, rfl, hne, congrArg (c :: ·) hx⟩
  | @replace x y o hne hstretch hrest =>
    cases a with
    | nil =>
      subst hout
      exact .inl ⟨x ++ y, rfl, .replace hne hstretch hrest⟩
    | cons d a => exact .inr ⟨[], d :: a, o, rfl, nofun, rfl⟩

/-! ## What comes out of a sweep -/

/-- No field's name is the end of another's.  The whole completeness rests on this. -/
theorem eq_of_isSuffix (hfield : field ∈ fields) (hother : other ∈ fields) (h : other <:+ field) :
    other = field := by
  by_contra hne
  have hnone := afterWord?_of_tails (field_mem_words hother) hfield ((List.mem_tails _ _).2 h)
    (.inl hne)
  rw [afterWord?_self hother] at hnone
  cases hnone

theorem border_inj {a b x y : List Char} {c d : Char} (ha : ∀ z ∈ a, isBorder z = false)
    (hb : ∀ z ∈ b, isBorder z = false) (hc : isBorder c = true) (hd : isBorder d = true)
    (h : a ++ c :: x = b ++ d :: y) : a = b ∧ c = d ∧ x = y := by
  have hfront : ∀ {a x : List Char} {c : Char}, (∀ z ∈ a, isBorder z = false) →
      isBorder c = true → (a ++ c :: x).takeWhile (!isBorder ·) = a := by
    intro a x c ha hc
    apply takeWhile_value
    · intro z hz
      rw [ha z hz, Bool.not_false]
    · rintro z ⟨⟩
      rw [hc, Bool.not_true]
  have hab : a = b := by rw [← hfront ha hc, h, hfront hb hd]
  subst hab
  obtain ⟨hsep, hrest⟩ := List.cons.inj (List.append_cancel_left h)
  exact ⟨rfl, hsep, hrest⟩

theorem not_isBorder_of_mem (hother : other ∈ fields) : ∀ c ∈ other, isBorder c = false := by
  have hplain : ∀ other ∈ fields, other.all fun c => !isBorder c := by decide
  intro c hc
  have hnot := List.all_eq_true.1 (hplain other hother) c hc
  rwa [Bool.not_eq_true'] at hnot

/-- A name that ends with the name of a field as a replacement has it begins with it. -/
theorem eq_nil_of_isNamed_append (hfield : field ∈ fields) (hother : other ∈ fields)
    {k : List Char} (h : IsNamed field (k ++ other)) : k = [] := by
  have hlower : ∀ other ∈ fields, other.map Text.small = other := by decide
  obtain ⟨quote, name, hhead, hquote, hname⟩ := h
  obtain rfl : quote = [] := by
    rcases hquote with rfl | ⟨q, hq, rfl⟩
    · rfl
    · -- The closing quote would be the last letter of the field.
      have hlast := congrArg List.getLast? hhead
      rw [List.getLast?_append_of_ne_nil _ (word_ne_nil (field_mem_words hother)),
        ← List.append_assoc, List.getLast?_concat] at hlast
      rw [not_isQuote_of_mem hother (List.mem_of_getLast? hlast)] at hq
      cases hq
  rw [List.append_nil, List.nil_append] at hhead
  rw [← hhead, List.map_append, hlower other hother] at hname
  have hsame := eq_of_isSuffix hfield hother ⟨_, hname⟩
  rw [hsame] at hname
  exact List.map_eq_nil_iff.1 (List.append_left_eq_self.1 hname)

theorem isValueChar_of_mem_mark : ∀ c ∈ mark, isValueChar c = true :=
  List.all_eq_true.1 (by decide)

theorem assignmentStretch?_of_mark (hfield : field ∈ fields) {u : List Char} (hu : u <:+ mark)
    (hne : u ≠ []) (y : List Char) : assignmentStretch? field (u ++ y) = none := by
  have hwordless : ∀ u ∈ mark.tails, u ≠ [] → u = u.dropLast ++ [']'] ∧
      ∀ word ∈ words, Text.afterWord? word u.dropLast = none := by decide +kernel
  have hbracket : ∀ word ∈ words, Text.small ']' ∉ word := by decide
  have hplain : mark.all fun c => !isQuote c := by decide
  have hword := field_mem_words hfield
  -- The bracket that closes the mark keeps a name from going on behind it.
  have hafter : Text.afterWord? field (u ++ y) = none := by
    obtain ⟨hsplit, hnone⟩ := hwordless u ((List.mem_tails _ _).2 hu) hne
    rw [hsplit, List.append_assoc, List.singleton_append,
      afterWord?_append (hbracket field hword), hnone field hword, Option.map_none]
  cases u with
  | nil => exact absurd rfl hne
  | cons c u =>
    have hquote := List.all_eq_true.1 hplain c (hu.subset (List.mem_cons_self ..))
    rw [Bool.not_eq_true'] at hquote
    rw [List.cons_append] at hafter ⊢
    rw [assignmentStretch?_of_not_isQuote hquote, hafter]
    rfl

theorem valueBehind_sweep (hother : other ∈ fields)
    (h : valueBehind text = [] ∨ valueBehind text = mark) :
    valueBehind ((assignmentForm other).sweep 0 text) = valueBehind text := by
  have hrespects := respectsValues_assignmentForm hother
  obtain ⟨w, s, htext, hw, hne, hv, hs⟩ := exists_valueBehind text
  generalize valueBehind text = v at *
  have hgap : ∀ y, ∀ u ∈ w.tails, u ≠ [] → (assignmentForm other).stretch? (u ++ y) = none := by
    intro y u hu hnil
    cases u with
    | nil => exact absurd rfl hnil
    | cons c u =>
      have hc : c ∈ w := ((List.mem_tails _ _).1 hu).subset (List.mem_cons_self ..)
      exact hrespects.at_border (isBorder_of_isBlank (hw c hc)) _
  have hvalue : ∀ u ∈ v.tails, u ≠ [] → (assignmentForm other).stretch? (u ++ s) = none := by
    intro u hu hnil
    rw [List.mem_tails] at hu
    rcases h with rfl | rfl
    · exact absurd (List.suffix_nil.1 hu) hnil
    · exact assignmentStretch?_of_mark hother hu hnil s
  rw [htext, Form.sweep_append (hgap _), Form.sweep_append hvalue]
  have hhead : ((assignmentForm other).sweep 0 s).head? = s.head? := by
    cases s with
    | nil => rfl
    | cons c s =>
      have hborder := isBorder_of_endsValue (hs c rfl)
      rw [Form.sweep_of_none (hrespects.at_border hborder s)]
      rfl
  apply valueBehind_append hw _ hv (endsValue_sweep hrespects hs)
  rw [List.head?_append, hhead, ← List.head?_append]
  exact hne

/-- An assignment that begins in a replacement is the replacement. -/
theorem eq_mark_of_replacement (hfield : field ∈ fields) (hother : other ∈ fields)
    {u o : List Char} (hu : u <:+ (assignmentForm other).replacement) (hne : u ≠ [])
    (ho : EndsValue o) (h : Assigns field (u ++ o) v s) : v = mark := by
  obtain ⟨t, ht⟩ := hu
  have ht' : t ++ u = other ++ ':' :: ' ' :: mark := ht
  rcases List.append_eq_append_iff.1 ht' with ⟨name, hname, hrest⟩ | ⟨m, -, hrest⟩
  · -- The name or an end of it, and what is behind the name.
    obtain ⟨head, sep, rest, htext, hhead, hsep, -, rfl⟩ := assigns_iff.1 ⟨s, h⟩
    have hplain : ∀ c ∈ name, isBorder c = false := by
      intro c hc
      apply not_isBorder_of_mem hother
      rw [hname]
      exact List.mem_append_right _ hc
    rw [hrest, List.append_assoc, List.cons_append] at htext
    obtain ⟨-, -, hbehind⟩ :=
      border_inj hplain (hhead.not_isBorder hfield) (by decide) (isBorder_of_sign hsep) htext
    rw [← hbehind]
    have hmark : mark ≠ [] := by decide
    exact valueBehind_append (w := [' ']) (List.forall_mem_singleton.2 rfl)
      (head?_value hmark isValueChar_of_mem_mark) isValueChar_of_mem_mark ho
  · -- The sign, the space or the mark.
    exfalso
    apply exists_stretch_of_assigns hfield h
    have hrespects := respectsValues_assignmentForm hfield
    have hu : u <:+ ':' :: ' ' :: mark := ⟨m, hrest.symm⟩
    rcases List.suffix_cons_iff.1 hu with rfl | hu
    · exact hrespects.at_border (z := ':') rfl _
    rcases List.suffix_cons_iff.1 hu with rfl | hu
    · exact hrespects.at_border (z := ' ') rfl _
    · exact assignmentStretch?_of_mark hfield hu hne o

/-- A name and a sign that begin at a character which a sweep has kept were there before, and the
sweep has gone on behind them. -/
theorem exists_before_of_kept (hfield : field ∈ fields) (hother : other ∈ fields) {c : Char}
    {l o : List Char} (hsweeps : (assignmentForm other).Sweeps l o)
    (htext : c :: o = head ++ sep :: rest) (hhead : IsNamed field head)
    (hsep : sep = ':' ∨ sep = '=') :
    ∃ before, c :: l = head ++ sep :: before ∧
      rest = (assignmentForm other).sweep 0 before := by
  cases head with
  | nil => exact absurd rfl (hhead.ne_nil hfield)
  | cons d head =>
    obtain ⟨rfl, ho'⟩ := List.cons.inj htext
    have ho : o = head ++ [sep] ++ rest := by rw [ho', List.append_assoc]; rfl
    rcases hsweeps.of_append ho with ⟨before, rfl, hrest⟩ | ⟨k, m, x, hsplit, hm, hx⟩
    · exact ⟨before, by simp, hrest.eq_sweep⟩
    · -- A replacement cannot begin in the name and at the sign.
      exfalso
      have hprefix : k <+: head := by
        have hk : k <+: head ++ [sep] := ⟨m, hsplit.symm⟩
        rcases List.prefix_concat_iff.1 hk with rfl | hk
        · exact absurd (List.append_right_eq_self.1 hsplit.symm) hm
        · exact hk
      obtain ⟨name, rfl⟩ := hprefix
      rw [ho, List.append_assoc, List.append_assoc] at hx
      have hbehind : name ++ sep :: rest = other ++ ':' :: (' ' :: mark ++ x) := by
        have hcancel := List.append_cancel_left hx
        simpa [assignmentForm] using hcancel
      have hplain : ∀ z ∈ name, isBorder z = false := by
        intro z hz
        apply hhead.not_isBorder hfield
        exact List.mem_cons_of_mem _ (List.mem_append_right _ hz)
      obtain ⟨rfl, -, -⟩ := border_inj hplain (not_isBorder_of_mem hother) (isBorder_of_sign hsep)
        (by decide) hbehind
      exact absurd (eq_nil_of_isNamed_append (k := c :: k) hfield hother hhead) nofun

/-- An assignment that begins at a character which a sweep has kept was there before. -/
theorem eq_mark_of_kept (hfield : field ∈ fields) (hother : other ∈ fields) {c : Char}
    {l o : List Char} (hnone : assignmentStretch? other (c :: l) = none)
    (hsweeps : (assignmentForm other).Sweeps l o)
    (hbefore : field = other ∨ IsRedacted field (c :: l)) (h : Assigns field (c :: o) v s) :
    v = mark := by
  obtain ⟨head, sep, rest, htext, hhead, hsep, hne, rfl⟩ := assigns_iff.1 ⟨s, h⟩
  obtain ⟨before, hl, rfl⟩ := exists_before_of_kept hfield hother hsweeps htext hhead hsep
  have hvalue : valueBehind before = [] ∨ valueBehind before = mark := by
    by_cases hnil : valueBehind before = []
    · exact .inl hnil
    · obtain ⟨s, hassigns⟩ : ∃ s, Assigns field (c :: l) (valueBehind before) s :=
        assigns_iff.2 ⟨head, sep, before, hl, hhead, hsep, hnil, rfl⟩
      right
      rcases hbefore with rfl | hredacted
      · exact absurd hnone (exists_stretch_of_assigns hfield hassigns)
      · exact hredacted _ _ _ List.suffix_rfl hassigns
  have hsame := valueBehind_sweep hother hvalue
  rw [hsame] at hne ⊢
  exact hvalue.resolve_left hne

/-- The sweep for a field leaves a text redacted for it, and for each field that it was redacted for
before. -/
theorem isRedacted_sweep (hfield : field ∈ fields) (hother : other ∈ fields)
    (hbefore : field = other ∨ IsRedacted field text) :
    IsRedacted field ((assignmentForm other).sweep 0 text) := by
  have hsweeps := sweeps_sweep other text
  generalize (assignmentForm other).sweep 0 text = out at hsweeps
  induction hsweeps with
  | nil =>
    rintro t v s ht ⟨head, sep, w, rfl, -⟩
    exact absurd (List.suffix_nil.1 ht) (by simp)
  -- At a kept character the assignment was there before; in a replacement it is the replacement's
  -- own.
  | @keep c l o hnone hrest ih =>
    intro t v s ht hassigns
    rcases List.suffix_cons_iff.1 ht with rfl | ht
    · exact eq_mark_of_kept hfield hother hnone hrest hbefore hassigns
    · exact ih (hbefore.imp_right (·.of_isSuffix (List.suffix_cons c l))) t v s ht hassigns
  | @replace x y o hne hstretch hrest ih =>
    intro t v s ht hassigns
    have hafter := ih (hbefore.imp_right (·.of_isSuffix (List.suffix_append x y)))
    have ho : EndsValue o := by
      obtain ⟨x', y', htext, hlen, -, hy⟩ := exists_of_assignmentStretch? hstretch
      obtain ⟨rfl, rfl⟩ := List.append_inj htext hlen.symm
      rw [hrest.eq_sweep]
      exact endsValue_sweep (respectsValues_assignmentForm hother) hy
    obtain ⟨p, hp⟩ := ht
    rcases List.append_eq_append_iff.1 hp with ⟨u, hu, rfl⟩ | ⟨m, -, hm⟩
    · by_cases hnil : u = []
      · subst hnil
        exact hafter o v s List.suffix_rfl hassigns
      · exact eq_mark_of_replacement hfield hother ⟨p, hu.symm⟩ hnil ho hassigns
    · exact hafter t v s ⟨m, hm.symm⟩ hassigns

/-! ## The whole redaction -/

/-- Once the sweep for a field is done, the text stays redacted for it. -/
theorem isRedacted_foldl {done : List (List Char)} (hdone : ∀ other ∈ done, other ∈ fields)
    (hfield : field ∈ fields) (h : field ∈ done ∨ IsRedacted field text) :
    IsRedacted field (redactFields done text) := by
  induction done generalizing text with
  | nil => exact h.resolve_left List.not_mem_nil
  | cons other done ih =>
    obtain ⟨hother, hdone⟩ := List.forall_mem_cons.1 hdone
    apply ih hdone
    rcases h with hmem | hredacted
    · rcases List.mem_cons.1 hmem with hsame | hmem
      · exact .inr (isRedacted_sweep hfield hother (.inl hsame))
      · exact .inl hmem
    · exact .inr (isRedacted_sweep hfield hother (.inr hredacted))

/-- Redaction leaves nothing to be redacted: in what comes out, every assignment to a sensitive
field has the mark as its value.  This holds for each field as soon as its own sweep is done, and no
later sweep undoes it. -/
theorem redactWith_leaves_marks {order : List (List Char)} (horder : order.Perm fields)
    (text : List Char) :
    (∀ field ∈ fields, IsRedacted field (redactWith order text)) ∧
    ∀ done later, order = done ++ later → ∀ field ∈ done,
      IsRedacted field (redactWith done text) := by
  have hfields : ∀ field ∈ order, field ∈ fields := fun field => horder.mem_iff.1
  constructor
  · intro field hfield
    exact isRedacted_foldl hfields hfield (.inl (horder.mem_iff.2 hfield))
  · rintro done later rfl field hmem
    have hdone : ∀ other ∈ done, other ∈ fields :=
      fun other hother => hfields other (List.mem_append_left _ hother)
    exact isRedacted_foldl hdone (hdone field hmem) (.inl hmem)

theorem redactWith_leaves_marks_of_two :
    redactWith fields.reverse "password=hunter2, 'TOKEN': abc)".toList =
        "password: [REDACTED], token: [REDACTED])".toList ∧
      IsRedacted "token".toList
        (redactWith fields.reverse "password=hunter2, 'TOKEN': abc)".toList) := by
  have h := redactWith_leaves_marks (List.reverse_perm fields)
    "password=hunter2, 'TOKEN': abc)".toList
  exact ⟨by decide +kernel, h.1 _ (by decide)⟩

end SecretMirror.Redaction
