import SecretMirror.Proofs.Redaction.Forms

/-!
# Sweeps over a value

A text `l ++ v ++ s` holds a value `v`, and `l` ends in a border.  Every sweep either finds a
stretch that begins in `l` and covers the value, and what comes out no longer depends on it, or it
works on both sides of the value and leaves the value itself alone (`separates`).  So the whole
redaction hides the value if one of the sweeps swallows it (`foldl_sweep_of_swallows`) and gives it
out as it is if none does (`foldl_sweep_of_not_swallows`).  Which it is can be told from `l`
(`swallows`).
-/

namespace SecretMirror.Redaction

variable {f : Form} {n : Nat} {z : Char}

/-- Whether a stretch that begins in `l` reaches a value of `n` characters behind `l`; `skip`
characters of `l` are still to be passed over.  Any value of that length may stand in for it. -/
def Form.reaches (f : Form) (n : Nat) : Nat → List Char → Bool
  | _, [] => false
  | skip + 1, _ :: l => f.reaches n skip l
  | 0, c :: l =>
    match f.stretch? (c :: l ++ List.replicate n 'x') with
    | some (k + 1) => l.length < k || f.reaches n k l
    | _ => f.reaches n 0 l

/-- Whether one of the sweeps reaches a value of `n` characters behind `l`, where every sweep finds
`l` as those before it have left it. -/
def swallows (n : Nat) : List Form → List Char → Bool
  | [], _ => false
  | f :: fs, l => f.reaches n 0 l || swallows n fs (f.sweep 0 l)

/-! ## One sweep -/

section Sweep

variable {c : Char} {l : List Char} {k skip skip' : Nat}

theorem Form.sweep_of_stretch (h : f.stretch? (c :: l) = some (k + 1)) :
    f.sweep 0 (c :: l) = f.replacement ++ f.sweep k l := by
  unfold Form.sweep
  rw [Redaction.sweep, h]

theorem Form.sweep_of_not_stretch (h : ∀ k, f.stretch? (c :: l) ≠ some (k + 1)) :
    f.sweep 0 (c :: l) = c :: f.sweep 0 l := by
  unfold Form.sweep
  rw [Redaction.sweep]
  split
  · rename_i k hk
    exact absurd hk (h k)
  · rfl

theorem Form.sweep_of_none (h : f.stretch? (c :: l) = none) :
    f.sweep 0 (c :: l) = c :: f.sweep 0 l := by
  apply Form.sweep_of_not_stretch
  intro k
  rw [h]
  exact (Option.some_ne_none _).symm

theorem Form.sweep_length (f : Form) (x y : List Char) :
    f.sweep x.length (x ++ y) = f.sweep 0 y := by
  induction x with
  | nil => rfl
  | cons c x ih => exact ih

theorem Form.reaches_of_stretch
    (h : f.stretch? (c :: l ++ List.replicate n 'x') = some (k + 1)) :
    f.reaches n 0 (c :: l) = (decide (l.length < k) || f.reaches n k l) := by
  rw [Form.reaches, h]

theorem Form.reaches_of_not_stretch
    (h : ∀ k, f.stretch? (c :: l ++ List.replicate n 'x') ≠ some (k + 1)) :
    f.reaches n 0 (c :: l) = f.reaches n 0 l := by
  rw [Form.reaches]
  split
  · rename_i k hk
    exact absurd hk (h k)
  · rfl

theorem Form.reaches_of_none (h : f.stretch? (c :: l ++ List.replicate n 'x') = none) :
    f.reaches n 0 (c :: l) = f.reaches n 0 l := by
  apply Form.reaches_of_not_stretch
  intro k
  rw [h]
  exact (Option.some_ne_none _).symm

/-- A sweep leaves a text alone in which no stretch begins. -/
theorem Form.sweep_append {x y : List Char}
    (h : ∀ u ∈ x.tails, u ≠ [] → f.stretch? (u ++ y) = none) :
    f.sweep 0 (x ++ y) = x ++ f.sweep 0 y := by
  induction x with
  | nil => rfl
  | cons c x ih =>
    have hnone : f.stretch? (c :: (x ++ y)) = none := h (c :: x) (by simp) nofun
    have hrest := ih fun u hu => h u (by simp [hu])
    rw [List.cons_append, Form.sweep_of_none hnone, hrest]
    rfl

theorem sweep_value (hf : f.RespectsValues) {v s : List Char} (hv : IsValue v)
    (hs : EndsValue s) : f.sweep 0 (v ++ s) = v ++ f.sweep 0 s := by
  apply Form.sweep_append
  intro u hu hne
  have hsuffix := (List.mem_tails u v).1 hu
  apply hf.within hne
  · exact fun c hc => hv.chars c (hsuffix.subset hc)
  · exact fun word hword => hv.wordless word hword u hu
  · exact hs

theorem endsValue_sweep (hf : f.RespectsValues) {s : List Char} (hs : EndsValue s) :
    EndsValue (f.sweep 0 s) := by
  cases s with
  | nil => exact hs
  | cons c s =>
    have hc : isValueChar c = false := hs c rfl
    rw [Form.sweep_of_none (hf.at_border (isBorder_of_endsValue hc) s)]
    exact hs

/-- A sweep covers a value behind `l` with a stretch that begins in `l`, or it works on both sides
of the value and leaves the border before it. -/
def Form.Separates (f : Form) (n : Nat) (z : Char) (skip : Nat) (l : List Char) : Prop :=
  (f.reaches n skip l = true ∧
    ∃ o, ∀ v s, IsValue v → v.length = n → EndsValue s →
      f.sweep skip (l ++ (v ++ s)) = o ++ f.sweep 0 s) ∨
  (f.reaches n skip l = false ∧
    ∃ l', f.sweep skip l = l' ++ [z] ∧
      ∀ v s, IsValue v → v.length = n → EndsValue s →
        f.sweep skip (l ++ (v ++ s)) = l' ++ [z] ++ (v ++ f.sweep 0 s))

theorem Form.Separates.step (h : f.Separates n z skip' l) {o : List Char}
    (hreaches : f.reaches n skip (c :: l) = f.reaches n skip' l)
    (hleft : f.sweep skip (c :: l) = o ++ f.sweep skip' l)
    (hvalue : ∀ v s, IsValue v → v.length = n → EndsValue s →
      f.sweep skip (c :: l ++ (v ++ s)) = o ++ f.sweep skip' (l ++ (v ++ s))) :
    f.Separates n z skip (c :: l) := by
  rcases h with ⟨hcovers, o', ho'⟩ | ⟨hpasses, l', hl', hboth⟩
  · left
    refine ⟨hreaches.trans hcovers, o ++ o', fun v s hv hn hs => ?_⟩
    rw [hvalue v s hv hn hs, ho' v s hv hn hs, List.append_assoc]
  · right
    refine ⟨hreaches.trans hpasses, o ++ l', ?_, fun v s hv hn hs => ?_⟩
    · rw [hleft, hl', List.append_assoc]
    · rw [hvalue v s hv hn hs, hboth v s hv hn hs, List.append_assoc, List.append_assoc,
        List.append_assoc]

theorem Form.Separates.of_covers (hn : n ≠ 0)
    (h : ∀ v s, IsValue v → v.length = n → EndsValue s →
      f.stretch? (c :: l ++ (v ++ s)) = some ((c :: l).length + n)) :
    f.Separates n z 0 (c :: l) := by
  have hlength : (c :: l).length + n = l.length + n + 1 := by
    rw [List.length_cons]
    omega
  rw [hlength] at h
  left
  constructor
  · have hx := h _ [] (isValue_replicate hn) List.length_replicate endsValue_nil
    rw [List.append_nil] at hx
    rw [Form.reaches_of_stretch hx, decide_eq_true (by omega), Bool.true_or]
  · refine ⟨f.replacement, fun v s hv hlen hs => ?_⟩
    have hreach : l.length + n = (l ++ v).length := by rw [List.length_append, hlen]
    refine (Form.sweep_of_stretch (h v s hv hlen hs)).trans ?_
    show f.replacement ++ f.sweep (l.length + n) (l ++ (v ++ s)) = f.replacement ++ f.sweep 0 s
    rw [← List.append_assoc, hreach, f.sweep_length]

theorem separates (hf : f.RespectsValues) (hz : isBorder z = true) (hn : n ≠ 0)
    (hskip : skip ≤ l.length) : f.Separates n z skip (l ++ [z]) := by
  -- The induction is on what is to the left of the border.  What is still to be passed over never
  -- goes beyond it, since no stretch that begins there ends in the border.
  induction l generalizing skip with
  | nil =>
    obtain rfl : skip = 0 := Nat.le_zero.1 hskip
    have hnone := hf.at_border hz
    refine .inr ⟨?_, [], ?_, fun v s hv _ hs => ?_⟩
    · exact Form.reaches_of_none (hnone _)
    · exact Form.sweep_of_none (hnone [])
    · show f.sweep 0 (z :: (v ++ s)) = [] ++ [z] ++ (v ++ f.sweep 0 s)
      rw [Form.sweep_of_none (hnone _), sweep_value hf hv hs]
      rfl
  | cons c l ih =>
    cases skip with
    | succ skip =>
      have hrest := ih (Nat.le_of_succ_le_succ hskip)
      exact hrest.step (o := []) rfl rfl fun _ _ _ _ _ => rfl
    | zero =>
      rcases hf.splits hz n (c :: l) with hcovers | ⟨hsame, hshort⟩
      · exact .of_covers hn hcovers
      · -- Any value of the length may stand in for the value, so take the one that `reaches` looks
        -- at.
        have hx := hsame _ [] (isValue_replicate hn) List.length_replicate endsValue_nil
        rw [List.append_nil] at hx
        by_cases hstretch : ∃ k, f.stretch? (c :: l ++ [z]) = some (k + 1)
        · -- A stretch that ends on the left.
          obtain ⟨k, hk⟩ := hstretch
          have hle : k < l.length + 1 := by
            have hlt := hshort _ hk
            simp only [List.length_append, List.length_cons, List.length_nil] at hlt
            omega
          refine (@ih k (Nat.le_of_lt_succ hle)).step (o := f.replacement) ?_ ?_ ?_
          · have hnot : ¬ (l ++ [z]).length < k := by
              rw [List.length_append]
              omega
            have hreaches : f.reaches n 0 (c :: (l ++ [z])) =
                (decide ((l ++ [z]).length < k) || f.reaches n k (l ++ [z])) :=
              Form.reaches_of_stretch (hx.trans hk)
            rwa [decide_eq_false hnot, Bool.false_or] at hreaches
          · exact Form.sweep_of_stretch hk
          · intro v s hv hlen hs
            exact Form.sweep_of_stretch ((hsame v s hv hlen hs).trans hk)
        · have hnone : ∀ k, f.stretch? (c :: l ++ [z]) ≠ some (k + 1) :=
            fun k hk => hstretch ⟨k, hk⟩
          refine (ih (Nat.zero_le _)).step (o := [c]) ?_ ?_ ?_
          · exact Form.reaches_of_not_stretch fun k hk => hnone k (hx.symm.trans hk)
          · exact Form.sweep_of_not_stretch hnone
          · intro v s hv hlen hs
            exact Form.sweep_of_not_stretch fun k hk =>
              hnone k ((hsame v s hv hlen hs).symm.trans hk)

end Sweep

/-! ## All sweeps -/

section Sweeps

variable {fs : List Form} {l v v' s : List Char}

/-- What one of the sweeps swallows is the same for all values of a length. -/
theorem foldl_sweep_of_swallows (hfs : ∀ f ∈ fs, f.RespectsValues) (hz : isBorder z = true)
    (hv : IsValue v) (hv' : IsValue v') (hlen : v'.length = v.length) (hs : EndsValue s)
    (h : swallows v.length fs (l ++ [z]) = true) :
    fs.foldl (fun text f => f.sweep 0 text) (l ++ [z] ++ (v ++ s)) =
      fs.foldl (fun text f => f.sweep 0 text) (l ++ [z] ++ (v' ++ s)) := by
  induction fs generalizing l s with
  | nil => cases h
  | cons f fs ih =>
    obtain ⟨hf, hfs⟩ := List.forall_mem_cons.1 hfs
    have hn : v.length ≠ 0 := fun hnil => hv.nonempty (List.eq_nil_of_length_eq_zero hnil)
    rw [List.foldl_cons, List.foldl_cons]
    rcases separates hf hz hn (Nat.zero_le l.length) with ⟨-, o, ho⟩ | ⟨hpasses, l', hl', hboth⟩
    · rw [ho v s hv rfl hs, ho v' s hv' hlen hs]
    · rw [swallows, hpasses, Bool.false_or, hl'] at h
      rw [hboth v s hv rfl hs, hboth v' s hv' hlen hs]
      exact ih hfs (endsValue_sweep hf hs) h

/-- What none of the sweeps swallows comes out as it is. -/
theorem foldl_sweep_of_not_swallows (hfs : ∀ f ∈ fs, f.RespectsValues) (hz : isBorder z = true)
    (hv : IsValue v) (hs : EndsValue s) (h : swallows v.length fs (l ++ [z]) = false) :
    fs.foldl (fun text f => f.sweep 0 text) (l ++ [z] ++ (v ++ s)) =
      fs.foldl (fun text f => f.sweep 0 text) (l ++ [z]) ++
        (v ++ fs.foldl (fun text f => f.sweep 0 text) s) := by
  induction fs generalizing l s with
  | nil => rfl
  | cons f fs ih =>
    obtain ⟨hf, hfs⟩ := List.forall_mem_cons.1 hfs
    have hn : v.length ≠ 0 := fun hnil => hv.nonempty (List.eq_nil_of_length_eq_zero hnil)
    rw [swallows, Bool.or_eq_false_iff] at h
    rw [List.foldl_cons, List.foldl_cons, List.foldl_cons]
    rcases separates hf hz hn (Nat.zero_le l.length) with ⟨hcovers, -⟩ | ⟨-, l', hl', hboth⟩
    · rw [hcovers] at h
      cases h.1
    · rw [hl'] at h
      rw [hboth v s hv rfl hs, hl']
      exact ih hfs (endsValue_sweep hf hs) h.2

end Sweeps

end SecretMirror.Redaction
