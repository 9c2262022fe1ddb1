import Mathlib.Data.List.TakeWhile
import SecretMirror.Proofs.Redaction.Sweeps

/-!
# When a field's value is told

A text assigns a value to a sensitive field: `left ++ v ++ s`, where `left` ends in the name, a sign
and white space.  The sweep for the field swallows the value if it still finds the name.  But a
sweep before it may have taken the name for key material or for a value, or the field's own sweep
may have: this happens to `aescbc: key: v`, to `data: {key: v`, where the order matters, and to
`key: key: v`.  Then the value is told.  What comes out depends on the value just if no sweep
swallows it (`redactWith_eq_iff`); and one does if no word begins before the name.
-/

namespace SecretMirror.Redaction

variable {f : Form} {n : Nat} {p field w : List Char} {sep : Char}

/-! ## A text in which nothing else is emitted -/

/-- No word begins in `p` when `field` follows, so no sweep finds anything before the field. -/
def BeginsNoWord (p field : List Char) : Prop :=
  ∀ word ∈ words, ∀ u ∈ p.tails, u ≠ [] → Text.afterWord? word (u ++ field) = none

theorem measure?_sign (hsep : sep = ':' ∨ sep = '=') (hw : ∀ c ∈ w, Text.isBlank c = true)
    {least : Nat} (hleast : 0 < least) :
    measure? isKeyGap isKeyChar true least (sep :: w) = none := by
  unfold measure? gapAndRun
  rcases hsep with rfl | rfl
  · have hgap : ∀ c ∈ ':' :: w, isKeyGap c = true := by
      intro c hc
      rcases List.mem_cons.1 hc with rfl | hc
      · rfl
      · rw [isKeyGap, hw c hc, Bool.or_true]
    rw [List.dropWhile_eq_nil_iff.2 hgap]
    exact if_pos (.inr hleast)
  · exact if_pos (.inl ⟨rfl, rfl⟩)

/-- No key material begins in the name of a field that has its sign. -/
theorem keyStretch?_of_sign {k : KeyWord} (hk : k ∈ keyWords) (hfield : field ∈ fields)
    (hsep : sep = ':' ∨ sep = '=') (hw : ∀ c ∈ w, Text.isBlank c = true) {u : List Char}
    (hu : u ∈ field.tails) : keyStretch? k (u ++ sep :: w) = none := by
  have hword := KeyWord.word_mem_words hk
  have hleast : ∀ k ∈ keyWords, 0 < k.least := by decide
  rw [keyStretch?_eq, afterWord?_append (small_not_mem_word hword (isBorder_of_sign hsep))]
  by_cases hne : k.word ≠ field ∨ u ≠ field
  · rw [afterWord?_of_tails hword hfield hu hne]
    rfl
  · obtain ⟨hsame, rfl⟩ : k.word = field ∧ u = field := by simpa using hne
    rw [hsame, afterWord?_self hfield, Option.map_some, Option.bind_some, List.nil_append,
      measure?_sign hsep hw (hleast k hk)]
    rfl

theorem assignmentStretch?_of_ne {field' : List Char} (hfield' : field' ∈ fields)
    (hfield : field ∈ fields) (hne : field' ≠ field) (hsep : sep = ':' ∨ sep = '=') {u : List Char}
    (hu : u ∈ field.tails) (hnil : u ≠ []) : assignmentStretch? field' (u ++ sep :: w) = none := by
  have hword := field_mem_words hfield'
  cases u with
  | nil => exact absurd rfl hnil
  | cons c u =>
    have hc : c ∈ field := ((List.mem_tails _ _).1 hu).subset (List.mem_cons_self ..)
    rw [List.cons_append, assignmentStretch?_of_not_isQuote (not_isQuote_of_mem hfield hc),
      ← List.cons_append, afterWord?_append (small_not_mem_word hword (isBorder_of_sign hsep)),
      afterWord?_of_tails hword hfield hu (.inl hne)]
    rfl

theorem assignmentStretch?_of_beginsNoWord {field' : List Char} (hfield' : field' ∈ fields)
    (hfield : field ∈ fields) (hp : BeginsNoWord p field) (hsep : sep = ':' ∨ sep = '=')
    {u : List Char} (hu : u ∈ p.tails) (hnil : u ≠ []) (y : List Char) :
    assignmentStretch? field' (u ++ field ++ sep :: y) = none := by
  have hword := field_mem_words hfield'
  have happend := afterWord?_append (small_not_mem_word hword (isBorder_of_sign hsep))
  cases u with
  | nil => exact absurd rfl hnil
  | cons c u =>
    have hnone := hp _ hword _ hu hnil
    by_cases hc : isQuote c = true
    · have hrest := happend (u ++ field) y
      by_cases hu' : u = []
      · subst hu'
        rw [List.nil_append] at hrest
        by_cases hsame : field' = field
        · -- A quote that is not closed: the sign is next.
          have hne : sep ≠ c := by
            rintro rfl
            rw [not_isQuote_of_isBorder (isBorder_of_sign hsep)] at hc
            cases hc
          rw [hsame, afterWord?_self hfield, Option.map_some, List.nil_append] at hrest
          rw [hsame]
          exact assignmentStretch?_of_ne_quote hc hrest hne
        · have hself : field ∈ field.tails := (List.mem_tails _ _).2 List.suffix_rfl
          rw [afterWord?_of_tails hword hfield hself (.inl hsame), Option.map_none] at hrest
          exact assignmentStretch?_of_none hc hrest
      · have hsuffix : u ∈ p.tails := by
          rw [List.mem_tails] at hu ⊢
          exact (List.suffix_cons c u).trans hu
        rw [hp _ hword _ hsuffix hu'] at hrest
        exact assignmentStretch?_of_none hc hrest
    · rw [Bool.not_eq_true] at hc
      rw [List.cons_append, List.cons_append, assignmentStretch?_of_not_isQuote hc,
        ← List.cons_append, ← List.cons_append, happend, hnone]
      rfl

theorem sweep_of_beginsNoWord (hf : f.RespectsValues)
    (hbefore : ∀ u ∈ p.tails, u ≠ [] → f.stretch? (u ++ field ++ sep :: w) = none)
    (hname : ∀ u ∈ field.tails, u ≠ [] → f.stretch? (u ++ sep :: w) = none)
    (hsep : sep = ':' ∨ sep = '=') (hw : ∀ c ∈ w, Text.isBlank c = true) :
    f.sweep 0 (p ++ field ++ sep :: w) = p ++ field ++ sep :: w := by
  have hsign : ∀ u ∈ (sep :: w).tails, u ≠ [] → f.stretch? (u ++ []) = none := by
    intro u hu hne
    cases u with
    | nil => exact absurd rfl hne
    | cons c u =>
      have hc : c ∈ sep :: w := ((List.mem_tails _ _).1 hu).subset (List.mem_cons_self ..)
      apply hf.at_border
      rcases List.mem_cons.1 hc with rfl | hc
      · exact isBorder_of_sign hsep
      · exact isBorder_of_isBlank (hw c hc)
  have hp : ∀ u ∈ p.tails, u ≠ [] → f.stretch? (u ++ (field ++ sep :: w)) = none := by
    intro u hu hne
    rw [← List.append_assoc]
    exact hbefore u hu hne
  have hend := Form.sweep_append hsign
  rw [List.append_nil] at hend
  rw [List.append_assoc, Form.sweep_append hp, Form.sweep_append hname, hend]
  show p ++ (field ++ (sep :: w ++ [])) = p ++ (field ++ sep :: w)
  rw [List.append_nil]

theorem Form.reaches_append {x y : List Char}
    (h : ∀ u ∈ x.tails, u ≠ [] → f.stretch? (u ++ y ++ List.replicate n 'x') = none) :
    f.reaches n 0 (x ++ y) = f.reaches n 0 y := by
  induction x with
  | nil => rfl
  | cons c x ih =>
    have hnone : f.stretch? (c :: (x ++ y) ++ List.replicate n 'x') = none :=
      h (c :: x) (by simp) nofun
    rw [List.cons_append, Form.reaches_of_none hnone]
    exact ih fun u hu => h u (by simp [hu])

theorem assignmentStretch?_self (hfield : field ∈ fields) (hsep : sep = ':' ∨ sep = '=')
    (hw : ∀ c ∈ w, Text.isBlank c = true) (hn : n ≠ 0) :
    assignmentStretch? field (field ++ sep :: w ++ List.replicate n 'x') =
      some (field.length + (1 + (w.length + n))) := by
  obtain ⟨u, hu, -, hafter⟩ := exists_of_afterWord? (afterWord?_self hfield)
  rw [List.append_nil] at hu
  subst hu
  have hvalue := isValue_replicate hn
  have hgap : gapAndRun Text.isBlank isValueChar w = (w.length, 0) := by
    rw [gapAndRun, List.takeWhile_eq_self_iff.2 hw, List.dropWhile_eq_nil_iff.2 hw]
    rfl
  have hrun := gapAndRun_append (l := w) (s := []) hvalue.nonempty (fun c hc =>
    ⟨not_isBlank_of_isKeyChar (hvalue.chars c hc), isValueChar_of_isKeyChar (hvalue.chars c hc)⟩)
    endsValue_nil
  rw [hgap, List.append_nil, if_pos (Nat.add_zero _), List.length_replicate, Nat.zero_add] at hrun
  have hmeasure : measure? Text.isBlank isValueChar false 1 (w ++ List.replicate n 'x') =
      some (w.length + n) := by
    unfold measure?
    rw [hrun]
    exact if_neg (by simp [hn])
  have hstretch : valueStretch? (sep :: w ++ List.replicate n 'x') =
      some (1 + (w.length + n)) := by
    rw [List.cons_append, valueStretch?_cons, if_pos hsep, hmeasure]
    rfl
  cases field with
  | nil => exact absurd hfield (by decide)
  | cons c field =>
    rw [List.append_assoc, List.cons_append,
      assignmentStretch?_of_not_isQuote (not_isQuote_of_mem hfield (List.mem_cons_self ..)),
      ← List.cons_append, hafter, Option.bind_some, hstretch]
    rfl

/-- The sweep for a field reaches the value behind its name. -/
theorem reaches_of_beginsNoWord (hfield : field ∈ fields) (hp : BeginsNoWord p field)
    (hsep : sep = ':' ∨ sep = '=') (hw : ∀ c ∈ w, Text.isBlank c = true) (hn : n ≠ 0) :
    (assignmentForm field).reaches n 0 (p ++ field ++ sep :: w) = true := by
  have hstretch := assignmentStretch?_self hfield hsep hw hn
  rw [List.append_assoc, Form.reaches_append]
  · cases field with
    | nil => exact absurd hfield (by decide)
    | cons c field =>
      have hlength : (c :: field).length + (1 + (w.length + n)) =
          field.length + (1 + (w.length + n)) + 1 := by
        rw [List.length_cons]
        omega
      rw [hlength] at hstretch
      have hlt : (field ++ sep :: w).length < field.length + (1 + (w.length + n)) := by
        rw [List.length_append, List.length_cons]
        omega
      have hreaches : (assignmentForm (c :: field)).reaches n 0 (c :: (field ++ sep :: w)) =
          (decide ((field ++ sep :: w).length < field.length + (1 + (w.length + n))) || _) :=
        Form.reaches_of_stretch hstretch
      rwa [decide_eq_true hlt, Bool.true_or] at hreaches
  · intro u hu hne
    rw [← List.append_assoc, List.append_assoc, List.cons_append]
    exact assignmentStretch?_of_beginsNoWord hfield hfield hp hsep hu hne _

/-- The value is swallowed when one sweep reaches it and the others change nothing. -/
theorem swallows_of_mem {fs : List Form} {l : List Char} (hmem : f ∈ fs)
    (hreaches : f.reaches n 0 l = true) (hfs : ∀ g ∈ fs, g = f ∨ g.sweep 0 l = l) :
    swallows n fs l = true := by
  induction fs with
  | nil => exact absurd hmem List.not_mem_nil
  | cons g fs ih =>
    obtain ⟨hg, hfs⟩ := List.forall_mem_cons.1 hfs
    rw [swallows, Bool.or_eq_true]
    rcases List.mem_cons.1 hmem with rfl | hmem
    · exact .inl hreaches
    · rcases hg with rfl | hsweep
      · exact .inl hreaches
      · right
        rw [hsweep]
        exact ih hmem hfs

theorem swallows_of_beginsNoWord {order : List (List Char)} (horder : order.Perm fields)
    (hfield : field ∈ fields) (hp : BeginsNoWord p field) (hsep : sep = ':' ∨ sep = '=')
    (hw : ∀ c ∈ w, Text.isBlank c = true) (hn : n ≠ 0) :
    swallows n (forms order) (p ++ field ++ sep :: w) = true := by
  have hmem : assignmentForm field ∈ forms order :=
    List.mem_append_right _ (List.mem_map_of_mem (horder.mem_iff.2 hfield))
  refine swallows_of_mem hmem (reaches_of_beginsNoWord hfield hp hsep hw hn) fun f hf => ?_
  have hrespects := respectsValues_of_mem horder hf
  rcases List.mem_append.1 hf with hkey | hassignment
  · obtain ⟨k, hk, rfl⟩ := List.mem_map.1 hkey
    have hword := KeyWord.word_mem_words hk
    right
    refine sweep_of_beginsNoWord hrespects (fun u hu hne => ?_)
      (fun u hu _ => keyStretch?_of_sign hk hfield hsep hw hu) hsep hw
    show keyStretch? k (u ++ field ++ sep :: w) = none
    rw [keyStretch?_eq, afterWord?_append (small_not_mem_word hword (isBorder_of_sign hsep)),
      hp _ hword u hu hne]
    rfl
  · obtain ⟨field', hfield', rfl⟩ := List.mem_map.1 hassignment
    rw [horder.mem_iff] at hfield'
    by_cases hsame : field' = field
    · exact .inl (congrArg assignmentForm hsame)
    · right
      exact sweep_of_beginsNoWord hrespects
        (fun u hu hne => assignmentStretch?_of_beginsNoWord hfield' hfield hp hsep hu hne w)
        (fun u hu hne => assignmentStretch?_of_ne hfield' hfield hsame hsep hu hne) hsep hw

/-! ## What is told -/

theorem exists_border (p field : List Char) (hsep : sep = ':' ∨ sep = '=')
    (hw : ∀ c ∈ w, Text.isBlank c = true) :
    ∃ l z, p ++ field ++ sep :: w = l ++ [z] ∧ isBorder z = true := by
  have hlast := List.dropLast_append_getLast (List.cons_ne_nil sep w)
  refine ⟨p ++ field ++ (sep :: w).dropLast, (sep :: w).getLast (List.cons_ne_nil sep w), ?_, ?_⟩
  · rw [List.append_assoc (p ++ field), hlast]
  · rcases List.mem_cons.1 (List.getLast_mem (List.cons_ne_nil sep w)) with hz | hz
    · rw [hz]
      exact isBorder_of_sign hsep
    · exact isBorder_of_isBlank (hw _ hz)

variable {order : List (List Char)} {s v v' : List Char}

/-- A value that no sweep swallows is told, and what stands on its sides is redacted apart. -/
theorem redactWith_of_not_swallows (horder : order.Perm fields) (hsep : sep = ':' ∨ sep = '=')
    (hw : ∀ c ∈ w, Text.isBlank c = true) (hs : EndsValue s) (hv : IsValue v)
    (h : swallows v.length (forms order) (p ++ field ++ sep :: w) = false) :
    redactWith order (p ++ field ++ sep :: w ++ (v ++ s)) =
      redactWith order (p ++ field ++ sep :: w) ++ (v ++ redactWith order s) := by
  obtain ⟨l, z, hleft, hz⟩ := exists_border p field hsep hw
  rw [hleft] at h ⊢
  rw [redactWith_eq_foldl, redactWith_eq_foldl, redactWith_eq_foldl]
  exact foldl_sweep_of_not_swallows (fun f hf => respectsValues_of_mem horder hf) hz hv hs h

/-- The inner name is the value of the outer one. -/
example : swallows 8 (forms fields) "key: key: ".toList = false := by decide

/-- Two values of a length leave the same text just if they are the same or one of the sweeps
swallows them, and which of the two it is can be told from what is to the left of them.  One sweep
does if no word begins before the name of the field. -/
theorem redactWith_eq_iff (horder : order.Perm fields) (hfield : field ∈ fields)
    (hsep : sep = ':' ∨ sep = '=') (hw : ∀ c ∈ w, Text.isBlank c = true) (hs : EndsValue s)
    (hv : IsValue v) (hv' : IsValue v') (hlen : v'.length = v.length) :
    (redactWith order (p ++ field ++ sep :: w ++ (v ++ s)) =
        redactWith order (p ++ field ++ sep :: w ++ (v' ++ s)) ↔
      v = v' ∨ swallows v.length (forms order) (p ++ field ++ sep :: w) = true) ∧
    (BeginsNoWord p field →
      swallows v.length (forms order) (p ++ field ++ sep :: w) = true) := by
  have hn : v.length ≠ 0 := fun hnil => hv.nonempty (List.eq_nil_of_length_eq_zero hnil)
  refine ⟨⟨?_, ?_⟩, fun hp => swallows_of_beginsNoWord horder hfield hp hsep hw hn⟩
  · intro hsame
    by_cases hswallows : swallows v.length (forms order) (p ++ field ++ sep :: w) = true
    · exact .inr hswallows
    · rw [Bool.not_eq_true] at hswallows
      have htold := redactWith_of_not_swallows horder hsep hw hs hv hswallows
      rw [← hlen] at hswallows
      have htold' := redactWith_of_not_swallows horder hsep hw hs hv' hswallows
      rw [htold, htold'] at hsame
      exact .inl (List.append_inj_left (List.append_cancel_left hsame) hlen.symm)
  · rintro (rfl | hswallows)
    · rfl
    · obtain ⟨l, z, hleft, hz⟩ := exists_border p field hsep hw
      rw [hleft] at hswallows ⊢
      rw [redactWith_eq_foldl, redactWith_eq_foldl]
      exact foldl_sweep_of_swallows (fun f hf => respectsValues_of_mem horder hf) hz hv hv' hlen hs
        hswallows

/-- Behind nothing but an ordinary word, a value is hidden. -/
theorem redactWith_eq_of_bad_key :
    redactWith fields "bad key: c2VjcmV0".toList =
      redactWith fields "bad key: dG9rZW4x".toList := by
  have hv : IsValue "c2VjcmV0".toList :=
    ⟨by decide, List.all_eq_true.1 (by decide), by decide⟩
  have hv' : IsValue "dG9rZW4x".toList :=
    ⟨by decide, List.all_eq_true.1 (by decide), by decide⟩
  have hp : BeginsNoWord "bad ".toList "key".toList := by
    unfold BeginsNoWord
    decide
  have hkey : "key".toList ∈ fields := by decide
  have h := redactWith_eq_iff (p := "bad ".toList) (w := [' ']) (s := []) (List.Perm.refl fields)
    hkey (.inl rfl) (List.forall_mem_singleton.2 rfl) endsValue_nil hv hv' (by decide)
  exact h.1.2 (.inr (h.2 hp))

/-- Not every value is hidden: in `aescbc: key: c2VjcmV0` the sweep for the cipher takes the name of
the field for key material, and the sweep for the field finds no name any more. -/
theorem not_redactWith_eq :
    ¬ ∀ (order : List (List Char)) (p field w s v v' : List Char) (sep : Char),
      order.Perm fields → field ∈ fields → sep = ':' ∨ sep = '=' →
      (∀ c ∈ w, Text.isBlank c = true) → EndsValue s → IsValue v → IsValue v' →
      v'.length = v.length →
      redactWith order (p ++ field ++ sep :: w ++ (v ++ s)) =
        redactWith order (p ++ field ++ sep :: w ++ (v' ++ s)) := by
  intro h
  have hv : IsValue "c2VjcmV0".toList :=
    ⟨by decide, List.all_eq_true.1 (by decide), by decide⟩
  have hv' : IsValue "dG9rZW4x".toList :=
    ⟨by decide, List.all_eq_true.1 (by decide), by decide⟩
  have hkey : "key".toList ∈ fields := by decide
  have hsame := h fields "aescbc: ".toList "key".toList [' '] [] "c2VjcmV0".toList
    "dG9rZW4x".toList ':' (List.Perm.refl fields) hkey (.inl rfl)
    (List.forall_mem_singleton.2 rfl) endsValue_nil hv hv' (by decide)
  exact absurd hsame (by decide)

end SecretMirror.Redaction
