import SecretMirror.Proofs.Redaction.Words

/-!
# Forms at a value

A sweep of the redaction looks for one form (`Form`).  A stretch that begins to the left of a value
ends before the last character on the left, or covers the whole value: a gap and a run that get as
far as the value go on to its end, and which of the two happens depends on the value's length alone
(`Splits`).  No stretch begins in the value.
-/

namespace SecretMirror.Redaction

/-- A form that is swept for: where a stretch of it begins and how long it is, and what is put in
its place. -/
structure Form where
  stretch? : List Char → Option Nat
  replacement : List Char

def Form.sweep (f : Form) (skip : Nat) (text : List Char) : List Char :=
  Redaction.sweep f.stretch? f.replacement skip text

def keyForm (k : KeyWord) : Form := ⟨keyStretch? k, mark⟩

def assignmentForm (field : List Char) : Form :=
  ⟨assignmentStretch? field, field ++ ':' :: ' ' :: mark⟩

/-- All forms, in the order in which they are swept for.  Key material comes first. -/
def forms (order : List (List Char)) : List Form :=
  keyWords.map keyForm ++ order.map assignmentForm

theorem redactWith_eq_foldl (order : List (List Char)) (text : List Char) :
    redactWith order text = (forms order).foldl (fun text f => f.sweep 0 text) text := by
  rw [forms, List.foldl_append, List.foldl_map, List.foldl_map]
  rfl

/-! ## A gap and a run -/

/-- The lengths of a gap at the beginning of a text and of the run behind it. -/
def gapAndRun (gap run : Char → Bool) (text : List Char) : Nat × Nat :=
  ((text.takeWhile gap).length, ((text.dropWhile gap).takeWhile run).length)

variable {gap run : Char → Bool}

theorem gapAndRun_le (l : List Char) :
    (gapAndRun gap run l).1 + (gapAndRun gap run l).2 ≤ l.length := by
  have hrun : ((l.dropWhile gap).takeWhile run).length ≤ (l.dropWhile gap).length :=
    (List.takeWhile_prefix run).length_le
  have hsplit := congrArg List.length (List.takeWhile_append_dropWhile (p := gap) (l := l))
  rw [List.length_append] at hsplit
  simp only [gapAndRun]
  omega

theorem takeWhile_value {v s : List Char} (hv : ∀ c ∈ v, run c = true)
    (hs : ∀ c ∈ s.head?, run c = false) : (v ++ s).takeWhile run = v := by
  rw [List.takeWhile_append_of_pos hv]
  cases s with
  | nil => rw [List.takeWhile_nil, List.append_nil]
  | cons c s => rw [List.takeWhile_cons, hs c rfl, if_neg Bool.false_ne_true, List.append_nil]

theorem gap_value {v s : List Char} (hne : v ≠ []) (hv : ∀ c ∈ v, gap c = false) :
    (v ++ s).takeWhile gap = [] ∧ (v ++ s).dropWhile gap = v ++ s := by
  cases v with
  | nil => exact absurd rfl hne
  | cons c v =>
    have hc := hv c (List.mem_cons_self ..)
    rw [List.cons_append, List.takeWhile_cons, List.dropWhile_cons, hc]
    exact ⟨rfl, rfl⟩

/-- A gap and a run that get as far as a value end with it. -/
theorem gapAndRun_append {l v s : List Char} (hne : v ≠ [])
    (hv : ∀ c ∈ v, gap c = false ∧ run c = true) (hs : ∀ c ∈ s.head?, run c = false) :
    gapAndRun gap run (l ++ (v ++ s)) =
      if (gapAndRun gap run l).1 + (gapAndRun gap run l).2 = l.length then
        ((gapAndRun gap run l).1, (gapAndRun gap run l).2 + v.length)
      else gapAndRun gap run l := by
  have hrun := takeWhile_value (fun c hc => (hv c hc).2) hs
  have hgap := gap_value (s := s) hne fun c hc => (hv c hc).1
  have hsplit := congrArg List.length (List.takeWhile_append_dropWhile (p := gap) (l := l))
  rw [List.length_append] at hsplit
  by_cases hall : l.dropWhile gap = []
  · -- The gap takes all of the left.
    rw [hall, List.length_nil, Nat.add_zero] at hsplit
    have hend : (gapAndRun gap run l).1 + (gapAndRun gap run l).2 = l.length := by
      simp [gapAndRun, hall, hsplit]
    rw [if_pos hend]
    simp [gapAndRun, List.takeWhile_append, List.dropWhile_append, hgap, hall, hsplit, hrun]
  · have happend : (l ++ (v ++ s)).takeWhile gap = l.takeWhile gap := by
      have hpos : 0 < (l.dropWhile gap).length := List.length_pos_iff.2 hall
      rw [List.takeWhile_append, if_neg (by omega)]
    have hdrop : (l ++ (v ++ s)).dropWhile gap = l.dropWhile gap ++ (v ++ s) := by
      rw [List.dropWhile_append, if_neg (by rwa [List.isEmpty_iff])]
    by_cases hreaches : ((l.dropWhile gap).takeWhile run).length = (l.dropWhile gap).length
    · have hend : (gapAndRun gap run l).1 + (gapAndRun gap run l).2 = l.length := by
        simp only [gapAndRun]
        omega
      rw [if_pos hend]
      simp only [gapAndRun, happend, hdrop, List.takeWhile_append, if_pos hreaches, hrun,
        List.length_append]
      rw [hreaches]
    · have hend : ¬ (gapAndRun gap run l).1 + (gapAndRun gap run l).2 = l.length := by
        simp only [gapAndRun]
        omega
      rw [if_neg hend]
      simp only [gapAndRun, happend, hdrop, List.takeWhile_append, if_neg hreaches]

/-! ## The border of a value -/

/-- With a value of `n` characters behind it, `l` begins a stretch that covers just the value, or
one that ends before the last character of `l`, or none; the value plays no part in this. -/
def Splits (stretch? : List Char → Option Nat) (n : Nat) (l : List Char) : Prop :=
  (∀ v s, IsValue v → v.length = n → EndsValue s →
    stretch? (l ++ (v ++ s)) = some (l.length + n)) ∨
  (∀ v s, IsValue v → v.length = n → EndsValue s → stretch? (l ++ (v ++ s)) = stretch? l) ∧
    ∀ k, stretch? l = some k → k < l.length

variable {stretch? inner : List Char → Option Nat} {n : Nat} {l u : List Char}

theorem Splits.of_none (h : ∀ y, stretch? (l ++ y) = none) : Splits stretch? n l := by
  have hl : stretch? l = none := by
    have hnil := h []
    rwa [List.append_nil] at hnil
  refine .inr ⟨fun v s _ _ _ => ?_, fun k hk => ?_⟩
  · rw [h, hl]
  · rw [hl] at hk
    cases hk

/-- What begins a stretch for certain leaves the border to what is behind it. -/
theorem Splits.behind (h : ∀ y, stretch? (u ++ y) = (inner y).map (u.length + ·))
    (hinner : Splits inner n l) : Splits stretch? n (u ++ l) := by
  rcases hinner with hcovers | ⟨hsame, hshort⟩
  · left
    intro v s hv hn hs
    rw [List.append_assoc, h, hcovers v s hv hn hs, List.length_append, Nat.add_assoc]
    rfl
  · right
    constructor
    · intro v s hv hn hs
      rw [List.append_assoc, h, h, hsame v s hv hn hs]
    · intro k hk
      rw [h, Option.map_eq_some_iff] at hk
      obtain ⟨k', hk', rfl⟩ := hk
      have hlt := hshort k' hk'
      rw [List.length_append]
      omega

/-- The length of a gap and a run when the run is long enough, and the gap is there if it must. -/
def measure? (gap run : Char → Bool) (needsGap : Bool) (least : Nat) (text : List Char) :
    Option Nat :=
  let m := gapAndRun gap run text
  if needsGap ∧ m.1 = 0 ∨ m.2 < least then none else some (m.1 + m.2)

theorem splits_measure? (needsGap : Bool) (least : Nat)
    (hv : ∀ c, isKeyChar c = true → gap c = false ∧ run c = true)
    (hs : ∀ c, isValueChar c = false → run c = false) (n : Nat) (l : List Char) :
    Splits (measure? gap run needsGap least) n l := by
  have hle : (gapAndRun gap run l).1 + (gapAndRun gap run l).2 ≤ l.length := gapAndRun_le l
  have happend : ∀ v s, IsValue v → EndsValue s → gapAndRun gap run (l ++ (v ++ s)) = _ :=
    fun v s hvalue hends => gapAndRun_append hvalue.nonempty
      (fun c hc => hv c (hvalue.chars c hc)) fun c hc => hs c (hends c hc)
  unfold Splits measure?
  generalize hm : gapAndRun gap run l = m at happend hle
  by_cases hend : m.1 + m.2 = l.length
  · simp only [if_pos hend] at happend
    by_cases hnone : needsGap ∧ m.1 = 0 ∨ m.2 + n < least
    · right
      have hnone' : needsGap ∧ m.1 = 0 ∨ m.2 < least :=
        hnone.imp_right fun hshort => Nat.lt_of_le_of_lt (Nat.le_add_right ..) hshort
      constructor
      · intro v s hvalue hn hends
        simp only [happend v s hvalue hends, hn, if_pos hnone, if_pos hnone']
      · intro k hk
        simp only [if_pos hnone'] at hk
        cases hk
    · left
      intro v s hvalue hn hends
      simp only [happend v s hvalue hends, hn, if_neg hnone, ← hend, Nat.add_assoc]
  · right
    simp only [if_neg hend] at happend
    constructor
    · intro v s hvalue hn hends
      simp only [happend v s hvalue hends]
    · intro k hk
      dsimp only at hk
      split at hk
      · cases hk
      · cases hk
        omega

/-! ## Key material and assignments -/

theorem keyStretch?_eq (k : KeyWord) (text : List Char) :
    keyStretch? k text = (Text.afterWord? k.word text).bind fun rest =>
      (measure? isKeyGap isKeyChar true k.least rest).map (k.word.length + ·) := by
  unfold keyStretch? measure? gapAndRun
  congr 1
  funext rest
  simp only [Bool.or_eq_true, List.isEmpty_iff, decide_eq_true_eq, true_and,
    List.length_eq_zero_iff]
  split
  · rfl
  · rw [Nat.add_assoc]
    rfl

theorem valueStretch?_cons (c : Char) (rest : List Char) :
    valueStretch? (c :: rest) = if c = ':' ∨ c = '=' then
      (measure? Text.isBlank isValueChar false 1 rest).map (1 + ·) else none := by
  unfold valueStretch? measure? gapAndRun
  simp only [List.isEmpty_iff, Bool.false_eq_true, false_and, false_or, Nat.lt_one_iff,
    List.length_eq_zero_iff]
  split
  · split
    · rfl
    · rw [Nat.add_assoc]
      rfl
  · rfl

theorem splits_keyStretch? {k : KeyWord} (hk : k ∈ keyWords) {z : Char} (hz : isBorder z = true)
    (n : Nat) (l : List Char) : Splits (keyStretch? k) n (l ++ [z]) := by
  have hword := KeyWord.word_mem_words hk
  cases hafter : Text.afterWord? k.word l with
  | none =>
    apply Splits.of_none
    intro y
    rw [List.append_assoc, keyStretch?_eq, List.singleton_append,
      afterWord?_append (small_not_mem_word hword hz), hafter]
    rfl
  | some rest =>
    obtain ⟨u, rfl, hlen, hu⟩ := exists_of_afterWord? hafter
    have hrest := splits_measure? true k.least
      (fun c hc => ⟨not_isKeyGap_of_isKeyChar hc, hc⟩)
      (fun c hc => not_isKeyChar_of_endsValue hc) n (rest ++ [z])
    rw [List.append_assoc]
    refine Splits.behind (fun y => ?_) hrest
    rw [keyStretch?_eq, hu, hlen]
    rfl

theorem splits_valueStretch? (n : Nat) {l : List Char} (hl : l ≠ []) :
    Splits valueStretch? n l := by
  cases l with
  | nil => exact absurd rfl hl
  | cons c l =>
    by_cases hc : c = ':' ∨ c = '='
    · have hrest := splits_measure? false 1
        (fun c hc => ⟨not_isBlank_of_isKeyChar hc, isValueChar_of_isKeyChar hc⟩)
        (fun c hc => hc) n l
      rw [← List.singleton_append]
      refine Splits.behind (fun y => ?_) hrest
      rw [List.singleton_append, valueStretch?_cons, if_pos hc]
      rfl
    · apply Splits.of_none
      intro y
      rw [List.cons_append, valueStretch?_cons, if_neg hc]

theorem assignmentStretch?_of_not_isQuote {field : List Char} {c : Char} {text : List Char}
    (hc : isQuote c = false) : assignmentStretch? field (c :: text) =
      ((Text.afterWord? field (c :: text)).bind valueStretch?).map (field.length + ·) := by
  rw [assignmentStretch?, hc, if_neg Bool.false_ne_true]

section Quoted

variable {field text rest : List Char} {c d : Char} (hc : isQuote c = true)
include hc

theorem assignmentStretch?_of_none (h : Text.afterWord? field text = none) :
    assignmentStretch? field (c :: text) = none := by
  rw [assignmentStretch?, if_pos hc, h]

theorem assignmentStretch?_of_ne_quote (h : Text.afterWord? field text = some (d :: rest))
    (hd : d ≠ c) : assignmentStretch? field (c :: text) = none := by
  rw [assignmentStretch?, if_pos hc, h]
  exact if_neg hd

theorem assignmentStretch?_of_quote (h : Text.afterWord? field text = some (c :: rest)) :
    assignmentStretch? field (c :: text) = (valueStretch? rest).map (field.length + 2 + ·) := by
  rw [assignmentStretch?, if_pos hc, h]
  exact if_pos rfl

end Quoted

theorem splits_of_isQuote {field : List Char} (hfield : field ∈ fields) {c z : Char}
    (hc : isQuote c = true) (hz : isBorder z = true) (n : Nat) (l : List Char) :
    Splits (assignmentStretch? field) n (c :: l ++ [z]) := by
  have happend := afterWord?_append (small_not_mem_word (field_mem_words hfield) hz)
  cases hafter : Text.afterWord? field l with
  | none =>
    apply Splits.of_none
    intro y
    have hnone : Text.afterWord? field (l ++ [z] ++ y) = none := by
      rw [List.append_assoc, List.singleton_append, happend, hafter]
      rfl
    exact assignmentStretch?_of_none hc hnone
  | some rest =>
    obtain ⟨u, rfl, hlen, hu⟩ := exists_of_afterWord? hafter
    cases rest with
    | nil =>
      -- The quote is not closed: the border is next.
      apply Splits.of_none
      intro y
      have hne : z ≠ c := by
        rintro rfl
        rw [not_isQuote_of_isBorder hz] at hc
        cases hc
      have hopen : Text.afterWord? field (u ++ [] ++ [z] ++ y) = some (z :: y) := by
        rw [List.append_nil, List.append_assoc, hu]
        rfl
      exact assignmentStretch?_of_ne_quote hc hopen hne
    | cons d rest =>
      by_cases hd : d = c
      · have hvalue := splits_valueStretch? n (List.concat_ne_nil z rest)
        have hsplit : c :: (u ++ d :: rest) ++ [z] = c :: (u ++ [d]) ++ (rest ++ [z]) := by
          simp
        rw [hsplit]
        refine Splits.behind (fun y => ?_) hvalue
        have hquote : Text.afterWord? field (u ++ [d] ++ y) = some (c :: y) := by
          rw [List.append_assoc, hu, hd]
          rfl
        refine (assignmentStretch?_of_quote hc hquote).trans ?_
        simp [hlen]
      · apply Splits.of_none
        intro y
        have hopen : Text.afterWord? field (u ++ d :: rest ++ [z] ++ y) =
            some (d :: (rest ++ ([z] ++ y))) := by
          rw [List.append_assoc, List.append_assoc, hu]
          rfl
        exact assignmentStretch?_of_ne_quote hc hopen hd

theorem splits_of_not_isQuote {field : List Char} (hfield : field ∈ fields) {c z : Char}
    (hc : isQuote c = false) (hz : isBorder z = true) (n : Nat) (l : List Char) :
    Splits (assignmentStretch? field) n (c :: l ++ [z]) := by
  have hword := field_mem_words hfield
  cases hafter : Text.afterWord? field (c :: l) with
  | none =>
    apply Splits.of_none
    intro y
    rw [List.append_assoc, List.cons_append, assignmentStretch?_of_not_isQuote hc,
      ← List.cons_append, List.singleton_append,
      afterWord?_append (small_not_mem_word hword hz), hafter]
    rfl
  | some rest =>
    have hvalue := splits_valueStretch? n (List.concat_ne_nil z rest)
    obtain ⟨u, hl, hlen, hu⟩ := exists_of_afterWord? hafter
    cases u with
    | nil => exact absurd (List.eq_nil_of_length_eq_zero hlen.symm) (word_ne_nil hword)
    | cons c' u =>
      obtain ⟨rfl, -⟩ := List.cons.inj hl
      rw [hl, List.append_assoc]
      refine Splits.behind (fun y => ?_) hvalue
      rw [List.cons_append, assignmentStretch?_of_not_isQuote hc, ← List.cons_append, hu, hlen]
      rfl

theorem splits_assignmentStretch? {field : List Char} (hfield : field ∈ fields) {z : Char}
    (hz : isBorder z = true) (n : Nat) (l : List Char) :
    Splits (assignmentStretch? field) n (l ++ [z]) := by
  cases l with
  | nil =>
    apply Splits.of_none
    intro y
    show assignmentStretch? field (z :: y) = none
    rw [assignmentStretch?_of_not_isQuote (not_isQuote_of_isBorder hz),
      afterWord?_of_isBorder (field_mem_words hfield) hz]
    rfl
  | cons c l =>
    by_cases hc : isQuote c = true
    · exact splits_of_isQuote hfield hc hz n l
    · rw [Bool.not_eq_true] at hc
      exact splits_of_not_isQuote hfield hc hz n l

/-! ## All forms -/

/-- A form takes a value as a whole, and begins neither in it nor at a border.  This is all that the
sweeps need to know of a form. -/
structure Form.RespectsValues (f : Form) : Prop where
  splits : ∀ {z}, isBorder z = true → ∀ n l, Splits f.stretch? n (l ++ [z])
  within : ∀ {u s}, u ≠ [] → (∀ c ∈ u, isKeyChar c = true) →
    (∀ word ∈ words, Text.afterWord? word u = none) → EndsValue s → f.stretch? (u ++ s) = none
  at_border : ∀ {z}, isBorder z = true → ∀ x, f.stretch? (z :: x) = none

theorem respectsValues_keyForm {k : KeyWord} (hk : k ∈ keyWords) :
    (keyForm k).RespectsValues := by
  have hword := KeyWord.word_mem_words hk
  refine ⟨fun hz n l => splits_keyStretch? hk hz n l, ?_, ?_⟩
  · intro u s _ _ hnone hs
    show keyStretch? k (u ++ s) = none
    rw [keyStretch?_eq, afterWord?_of_endsValue hword (hnone _ hword) hs]
    rfl
  · intro z hz x
    show keyStretch? k (z :: x) = none
    rw [keyStretch?_eq, afterWord?_of_isBorder hword hz]
    rfl

theorem respectsValues_assignmentForm {field : List Char} (hfield : field ∈ fields) :
    (assignmentForm field).RespectsValues := by
  have hword := field_mem_words hfield
  refine ⟨fun hz n l => splits_assignmentStretch? hfield hz n l, ?_, ?_⟩
  · intro u s hne hchars hnone hs
    cases u with
    | nil => exact absurd rfl hne
    | cons c u =>
      have hquote := not_isQuote_of_isKeyChar (hchars c (List.mem_cons_self ..))
      show assignmentStretch? field (c :: (u ++ s)) = none
      rw [assignmentStretch?_of_not_isQuote hquote, ← List.cons_append,
        afterWord?_of_endsValue hword (hnone _ hword) hs]
      rfl
  · intro z hz x
    show assignmentStretch? field (z :: x) = none
    rw [assignmentStretch?_of_not_isQuote (not_isQuote_of_isBorder hz),
      afterWord?_of_isBorder hword hz]
    rfl

theorem respectsValues_of_mem {order : List (List Char)} (horder : order.Perm fields) {f : Form}
    (hf : f ∈ forms order) : f.RespectsValues := by
  rcases List.mem_append.1 hf with hf | hf
  · obtain ⟨k, hk, rfl⟩ := List.mem_map.1 hf
    exact respectsValues_keyForm hk
  · obtain ⟨field, hfield, rfl⟩ := List.mem_map.1 hf
    exact respectsValues_assignmentForm (horder.mem_iff.1 hfield)

end SecretMirror.Redaction
