import SecretMirror.Proofs.Redaction.Completeness

/-!
# What a sweep passes over

The sweep for a field puts its replacement in the place of an assignment to the field and goes on
behind it (`sweep_of_assigns`).  Other things it passes over, and what stands behind them is swept
as if it stood alone:

* another field's name with its sign and the gap behind it (`sweep_of_name`), since no field's name
  is the end of another's;
* another field's replacement, and the mark (`sweep_replacement`, `sweep_mark`);
* a character at which no assignment begins; and none begins there once the sweep has changed what
  is behind it (`assignmentStretch?_of_kept`).

In the other direction, the mark behind a space is never brought in by a sweep
(`exists_mark_of_sweep`), nor is the beginning of a value, or taken away (`endsValue_sweep_iff`).
-/

namespace SecretMirror.Redaction

variable {field other text head w v s y : List Char} {sep c : Char}

/-! ## Names and values -/

theorem IsNamed.filter_small (hfield : field ∈ fields) (h : IsNamed field head) :
    (head.filter fun c => !isQuote c).map Text.small = field := by
  obtain ⟨quote, name, rfl, hquote, rfl⟩ := h
  have hquotes : quote.filter (fun c => !isQuote c) = [] := by
    rcases hquote with rfl | ⟨q, hq, rfl⟩
    · rfl
    · simp [hq]
  have hname : name.filter (fun c => !isQuote c) = name := by
    rw [List.filter_eq_self]
    intro c hc
    by_contra hquote
    have hsmall := isQuote_small (c := c) (by simpa using hquote)
    rw [not_isQuote_of_mem hfield (List.mem_map_of_mem hc)] at hsmall
    cases hsmall
  rw [List.filter_append, List.filter_append, hquotes, hname, List.nil_append, List.append_nil]

/-- A name does not end in the name of another field. -/
theorem eq_of_isNamed_append (hfield : field ∈ fields) (hother : other ∈ fields) {k : List Char}
    (h : IsNamed field (k ++ head)) (hhead : IsNamed other head) : other = field := by
  have hname := h.filter_small hfield
  rw [List.filter_append, List.map_append, hhead.filter_small hother] at hname
  exact eq_of_isSuffix hfield hother ⟨_, hname⟩

theorem isNamed_self (hfield : field ∈ fields) : IsNamed field field := by
  have hsmall : ∀ field ∈ fields, field.map Text.small = field := by decide
  exact ⟨[], field, by simp, .inl rfl, hsmall field hfield⟩

theorem sign_not_mem (hplain : ∀ c ∈ head, isBorder c = false) (hsep : sep = ':' ∨ sep = '=') :
    sep ∉ head := by
  intro hmem
  have hnot := hplain sep hmem
  rw [isBorder_of_sign hsep] at hnot
  cases hnot

/-! ## Values behind a sign -/

/-- The text is white space, a value `v`, and `s`, which does not go on with the value. -/
def HasValue (text v s : List Char) : Prop :=
  ∃ w, text = w ++ (v ++ s) ∧ (∀ c ∈ w, Text.isBlank c = true) ∧ v ≠ [] ∧
    (∀ c ∈ v, isValueChar c = true) ∧ EndsValue s

theorem hasValue_of_value (hne : v ≠ []) (hv : ∀ c ∈ v, isValueChar c = true) (hs : EndsValue s) :
    HasValue (v ++ s) v s :=
  ⟨[], rfl, fun _ hc => absurd hc List.not_mem_nil, hne, hv, hs⟩

theorem hasValue_mark (hs : EndsValue s) : HasValue (' ' :: (mark ++ s)) mark s :=
  ⟨[' '], rfl, List.forall_mem_singleton.2 rfl, by decide, isValueChar_of_mem_mark, hs⟩

theorem HasValue.valueBehind_eq (h : HasValue text v s) : valueBehind text = v := by
  obtain ⟨w, rfl, hw, hne, hv, hs⟩ := h
  exact valueBehind_append hw (head?_value hne hv) hv hs

theorem HasValue.endsValue (h : HasValue text v s) : EndsValue s := by
  obtain ⟨w, -, -, -, -, hs⟩ := h
  exact hs

theorem exists_hasValue (h : valueBehind text ≠ []) : ∃ s, HasValue text (valueBehind text) s := by
  obtain ⟨w, s, htext, hw, -, hv, hs⟩ := exists_valueBehind text
  exact ⟨s, w, htext, hw, h, hv, hs⟩

theorem HasValue.inj {v' s' : List Char} (h : HasValue text v s) (h' : HasValue text v' s') :
    v = v' ∧ s = s' := by
  obtain rfl : v = v' := h.valueBehind_eq.symm.trans h'.valueBehind_eq
  obtain ⟨w, rfl, hw, hne, hv, hs⟩ := h
  obtain ⟨w', htext, hw', -⟩ := h'
  have hbehind := congrArg (List.dropWhile Text.isBlank) htext
  rw [dropWhile_gap hw (head?_value hne hv), dropWhile_gap hw' (head?_value hne hv)] at hbehind
  exact ⟨rfl, List.append_cancel_left hbehind⟩

/-! ## Assignments -/

theorem Assigns.of_hasValue {rest : List Char} (hhead : IsNamed field head)
    (hsep : sep = ':' ∨ sep = '=') (h : HasValue rest v s) :
    Assigns field (head ++ sep :: rest) v s := by
  obtain ⟨w, rfl, hvalue⟩ := h
  exact ⟨head, sep, w, rfl, hhead, hsep, hvalue⟩

/-- An assignment that begins in a value has its name and its sign there. -/
theorem Assigns.exists_of_append {u : List Char} (hfield : field ∈ fields)
    (hu : ∀ c ∈ u, isValueChar c = true) (hy : EndsValue y) (h : Assigns field (u ++ y) v s) :
    ∃ head sep rest, u = head ++ sep :: rest ∧ IsNamed field head ∧ (sep = ':' ∨ sep = '=') ∧
      HasValue (rest ++ y) v s := by
  obtain ⟨head, sep, w, htext, hhead, hsep, hvalue⟩ := h
  have hnot : ∀ x, y ≠ sep :: x := by
    rintro x rfl
    have hends := hy sep rfl
    rcases hsep with rfl | rfl
    · exact absurd hends (by decide)
    · exact absurd hends (by decide)
  rcases List.append_eq_append_iff.1 htext with ⟨k, rfl, hbehind⟩ | ⟨k, rfl, hbehind⟩
  · -- What follows the value would begin in the name or with the sign.
    cases k with
    | nil => exact absurd hbehind (hnot _)
    | cons c k =>
      have hborder := isBorder_of_endsValue (hy c (by rw [hbehind]; rfl))
      rw [hhead.not_isBorder hfield c (by simp)] at hborder
      cases hborder
  · cases k with
    | nil => exact absurd hbehind.symm (hnot _)
    | cons c k =>
      obtain ⟨rfl, hrest⟩ := List.cons.inj hbehind
      exact ⟨head, sep, k, rfl, hhead, hsep, w, hrest.symm, hvalue⟩

theorem assignmentStretch?_eq_none_iff (hfield : field ∈ fields) :
    assignmentStretch? field text = none ↔ ∀ v s, ¬ Assigns field text v s := by
  constructor
  · intro hnone v s h
    exact exists_stretch_of_assigns hfield h hnone
  · intro h
    rw [Option.eq_none_iff_forall_ne_some]
    intro n hn
    obtain ⟨head, rest, m, rfl, hhead, hm, -⟩ := exists_isNamed hn
    cases rest with
    | nil => cases hm
    | cons sep rest =>
      by_cases hsep : sep = ':' ∨ sep = '='
      · rw [valueStretch?_of_sign hsep] at hm
        split at hm
        · cases hm
        · rename_i hne
          obtain ⟨s, hassigns⟩ : ∃ s, Assigns field (head ++ sep :: rest) (valueBehind rest) s :=
            assigns_iff.2 ⟨head, sep, rest, rfl, hhead, hsep, hne, rfl⟩
          exact h _ s hassigns
      · rw [valueStretch?_cons, if_neg hsep] at hm
        cases hm

/-- The sweep for a field replaces an assignment to it and goes on behind the value. -/
theorem sweep_of_assigns (hfield : field ∈ fields) (h : Assigns field text v s) :
    (assignmentForm field).sweep 0 text =
      (assignmentForm field).replacement ++ (assignmentForm field).sweep 0 s := by
  obtain ⟨head, sep, w, rfl, hhead, hsep, hw, hne, hv, hs⟩ := h
  have hbehind := valueBehind_append hw (head?_value hne hv) hv hs
  have hgap : (w ++ (v ++ s)).takeWhile Text.isBlank = w :=
    takeWhile_value hw (head?_value hne hv)
  have hsplit : head ++ sep :: (w ++ (v ++ s)) = (head ++ sep :: (w ++ v)) ++ s := by simp
  have hstretch : (assignmentForm field).stretch? ((head ++ sep :: (w ++ v)) ++ s) =
      some (head ++ sep :: (w ++ v)).length := by
    rw [← hsplit]
    show assignmentStretch? field _ = _
    rw [assignmentStretch?_of_isNamed hfield hhead, valueStretch?_of_sign hsep, hbehind,
      if_neg hne, hgap, Option.map_some]
    simp only [List.length_append, List.length_cons]
    congr 1
    omega
  have hsweeps := Form.Sweeps.replace (by simp) hstretch (sweeps_sweep field s)
  rw [hsplit, ← hsweeps.eq_sweep]

/-- A character at which no assignment begins stays one when the text behind it is swept. -/
theorem assignmentStretch?_of_kept (hfield : field ∈ fields) (hother : other ∈ fields)
    (hnone : assignmentStretch? field (c :: text) = none) :
    assignmentStretch? field (c :: (assignmentForm other).sweep 0 text) = none := by
  rw [assignmentStretch?_eq_none_iff hfield] at hnone ⊢
  intro v s h
  obtain ⟨head, sep, rest, htext, hhead, hsep, hne, rfl⟩ := assigns_iff.1 ⟨s, h⟩
  obtain ⟨before, hbefore, rfl⟩ :=
    exists_before_of_kept hfield hother (sweeps_sweep other text) htext hhead hsep
  have hnil : valueBehind before = [] := by
    by_contra hvalue
    obtain ⟨s, hassigns⟩ : ∃ s, Assigns field (c :: text) (valueBehind before) s :=
      assigns_iff.2 ⟨head, sep, before, hbefore, hhead, hsep, hvalue, rfl⟩
    exact hnone _ s hassigns
  rw [valueBehind_sweep hother (.inl hnil)] at hne
  exact hne hnil

/-! ## What is passed over -/

section

variable (hother : other ∈ fields)
include hother

theorem sweep_of_borders (hw : ∀ c ∈ w, isBorder c = true) (y : List Char) :
    (assignmentForm other).sweep 0 (w ++ y) = w ++ (assignmentForm other).sweep 0 y := by
  apply Form.sweep_append
  intro u hu hne
  cases u with
  | nil => exact absurd rfl hne
  | cons c u =>
    have hc : c ∈ w := ((List.mem_tails _ _).1 hu).subset (List.mem_cons_self ..)
    exact (respectsValues_assignmentForm hother).at_border (hw c hc) _

/-- A sweep passes over the name of another field, its sign and the gap behind it. -/
theorem sweep_of_name (hfield : field ∈ fields) (hne : other ≠ field) (hhead : IsNamed field head)
    (hsep : sep = ':' ∨ sep = '=') (hw : ∀ c ∈ w, Text.isBlank c = true) (y : List Char) :
    (assignmentForm other).sweep 0 (head ++ sep :: (w ++ y)) =
      head ++ sep :: (w ++ (assignmentForm other).sweep 0 y) := by
  have hname : ∀ u ∈ head.tails, u ≠ [] →
      (assignmentForm other).stretch? (u ++ sep :: (w ++ y)) = none := by
    intro u hu _
    obtain ⟨k, rfl⟩ := (List.mem_tails _ _).1 hu
    refine (assignmentStretch?_eq_none_iff hother).2 fun v s h => ?_
    obtain ⟨head', sep', w', htext, hhead', hsep', -⟩ := h
    have hplain : ∀ c ∈ u, isBorder c = false :=
      fun c hc => hhead.not_isBorder hfield c (List.mem_append_right _ hc)
    obtain ⟨rfl, -, -⟩ := border_inj hplain (hhead'.not_isBorder hother) (isBorder_of_sign hsep)
      (isBorder_of_sign hsep') htext
    exact hne (eq_of_isNamed_append hfield hother hhead hhead')
  have hborders : ∀ c ∈ sep :: w, isBorder c = true := by
    intro c hc
    rcases List.mem_cons.1 hc with rfl | hc
    · exact isBorder_of_sign hsep
    · exact isBorder_of_isBlank (hw c hc)
  have hbehind := sweep_of_borders hother hborders y
  rw [List.cons_append] at hbehind
  rw [Form.sweep_append hname, hbehind, List.cons_append]

theorem sweep_mark (y : List Char) :
    (assignmentForm other).sweep 0 (' ' :: (mark ++ y)) =
      ' ' :: (mark ++ (assignmentForm other).sweep 0 y) := by
  have hspace := (respectsValues_assignmentForm hother).at_border (z := ' ') rfl (mark ++ y)
  rw [Form.sweep_of_none hspace, Form.sweep_append]
  intro u hu hne
  exact assignmentStretch?_of_mark hother ((List.mem_tails _ _).1 hu) hne y

/-- A sweep passes over the replacement of another field. -/
theorem sweep_replacement (hfield : field ∈ fields) (hne : other ≠ field) (y : List Char) :
    (assignmentForm other).sweep 0 ((assignmentForm field).replacement ++ y) =
      (assignmentForm field).replacement ++ (assignmentForm other).sweep 0 y := by
  have hname := sweep_of_name hother hfield hne (isNamed_self hfield) (.inl rfl) (w := [])
    (fun c hc => absurd hc List.not_mem_nil) (' ' :: (mark ++ y))
  rw [List.nil_append, sweep_mark hother] at hname
  simpa [assignmentForm] using hname

/-! ## What no sweep brings in -/

theorem exists_letter : ∃ c l, other = c :: l ∧ isValueChar c = true ∧ c ∉ ' ' :: mark := by
  have hletter : ∀ other ∈ fields,
      other.head?.any fun c => isValueChar c && !(' ' :: mark).contains c := by decide
  have hany := hletter other hother
  cases other with
  | nil => cases hany
  | cons c l =>
    have hboth : (isValueChar c && !(' ' :: mark).contains c) = true := hany
    rw [Bool.and_eq_true, Bool.not_eq_true', List.contains_eq_mem, decide_eq_false_iff_not]
      at hboth
    exact ⟨c, l, rfl, hboth.1, hboth.2⟩

/-- The mark behind a space was there before. -/
theorem exists_mark_of_sweep {x : List Char}
    (h : (assignmentForm other).sweep 0 s = ' ' :: (mark ++ x)) :
    ∃ t, s = ' ' :: (mark ++ t) := by
  have hout : (assignmentForm other).sweep 0 s = (' ' :: mark) ++ x := h
  rcases (sweeps_sweep other s).of_append hout with ⟨t, rfl, -⟩ | ⟨k, m, y, hsplit, hm, hy⟩
  · exact ⟨t, rfl⟩
  · -- A replacement would begin in the mark.
    exfalso
    obtain ⟨c, l, rfl, -, hnot⟩ := exists_letter hother
    rw [hout, hsplit, List.append_assoc] at hy
    have hrest : m ++ x = c :: (l ++ ':' :: ' ' :: mark ++ y) := List.append_cancel_left hy
    cases m with
    | nil => exact hm rfl
    | cons d m =>
      obtain ⟨rfl, -⟩ := List.cons.inj hrest
      apply hnot
      rw [hsplit]
      exact List.mem_append_right _ (List.mem_cons_self ..)

/-- A sweep leaves it as it is whether a text begins with a character of a value. -/
theorem endsValue_sweep_iff : EndsValue ((assignmentForm other).sweep 0 s) ↔ EndsValue s := by
  refine ⟨fun h => ?_, endsValue_sweep (respectsValues_assignmentForm hother)⟩
  have hsweeps := sweeps_sweep other s
  generalize (assignmentForm other).sweep 0 s = out at h hsweeps
  cases hsweeps with
  | nil => exact endsValue_nil
  | keep hnone hrest => exact fun c hc => h c hc
  | replace hne hstretch hrest =>
    obtain ⟨c, l, rfl, hc, -⟩ := exists_letter hother
    have hnot := h c rfl
    rw [hc] at hnot
    cases hnot

end

end SecretMirror.Redaction
