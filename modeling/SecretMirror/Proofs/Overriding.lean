import SecretMirror.Fields
import Mathlib.Data.List.Nodup

/-!
# Fields that override others

Fields override and extend others (`Fields.Extends`) if every name that they give has their value,
every other name has the value it had, the names that were there stay in their places, and the new
ones follow in their order.  That is what `Fields.merge` makes of fields that name nothing twice
(`extends_merge`), and it leaves no other choice (`Extends.unique`).
-/

namespace SecretMirror.Fields

variable {α : Type} {base extra : Fields α}

/-! ## Giving a name its value -/

theorem names_cons (k : String) (v : α) (rest : Fields α) :
    names ((k, v) :: rest) = k :: names rest := rfl

theorem names_set (fs : Fields α) (k : String) (v : α) :
    (fs.set k v).names = if k ∈ fs.names then fs.names else fs.names ++ [k] := by
  induction fs with
  | nil => rfl
  | cons e rest ih =>
    obtain ⟨k', w⟩ := e
    by_cases h : k' = k
    · simp [set, names_cons, h]
    · have hne : ¬ k = k' := fun heq => h heq.symm
      rw [set, if_neg h, names_cons, names_cons, ih]
      by_cases hmem : k ∈ names rest
      · simp [hmem]
      · simp [hmem, hne]

theorem set_of_not_mem {fs : Fields α} {k : String} (h : k ∉ fs.names) (v : α) :
    fs.set k v = fs ++ [(k, v)] := by
  induction fs with
  | nil => rfl
  | cons e rest ih =>
    obtain ⟨k', w⟩ := e
    have hne : k' ≠ k := fun heq => h (by simp [names_cons, heq])
    have hrest : k ∉ names rest := fun hmem => h (List.mem_cons_of_mem _ hmem)
    rw [set, if_neg hne, ih hrest, List.cons_append]

theorem mem_set {fs : Fields α} {k : String} {v : α} {e : String × α} (h : e ∈ fs.set k v) :
    e ∈ fs ∨ e = (k, v) := by
  induction fs with
  | nil => exact .inr (List.mem_singleton.1 h)
  | cons e' rest ih =>
    obtain ⟨k', w⟩ := e'
    unfold set at h
    split at h
    · next heq =>
      rcases List.mem_cons.1 h with rfl | h
      · exact .inr (by rw [heq])
      · exact .inl (List.mem_cons_of_mem _ h)
    · rcases List.mem_cons.1 h with rfl | h
      · exact .inl List.mem_cons_self
      · exact (ih h).imp (List.mem_cons_of_mem _) id

theorem mem_of_get? {fs : Fields α} {key : String} {v : α} (h : fs.get? key = some v) :
    (key, v) ∈ fs := by
  induction fs with
  | nil => cases h
  | cons e rest ih =>
    obtain ⟨k, w⟩ := e
    rw [get?_cons] at h
    split at h
    · next heq =>
      rw [heq, Option.some.inj h]
      exact List.mem_cons_self
    · exact List.mem_cons_of_mem _ (ih h)

theorem merge_cons (k : String) (v : α) (rest : Fields α) :
    base.merge ((k, v) :: rest) = (base.set k v).merge rest := rfl

theorem mem_merge {e : String × α} (h : e ∈ base.merge extra) : e ∈ base ∨ e ∈ extra := by
  induction extra generalizing base with
  | nil => exact .inl h
  | cons e' rest ih =>
    obtain ⟨k, v⟩ := e'
    rcases ih h with hset | hrest
    · rcases mem_set hset with hbase | rfl
      · exact .inl hbase
      · exact .inr List.mem_cons_self
    · exact .inr (List.mem_cons_of_mem _ hrest)

theorem nodup_set {fs : Fields α} (h : fs.names.Nodup) (k : String) (v : α) :
    (fs.set k v).names.Nodup := by
  rw [names_set]
  split
  · exact h
  · next hk => exact List.concat_eq_append ▸ h.concat hk

theorem nodup_merge (h : base.names.Nodup) (extra : Fields α) : (base.merge extra).names.Nodup := by
  induction extra generalizing base with
  | nil => exact h
  | cons e rest ih => exact ih (nodup_set h e.1 e.2)

theorem merge_of_disjoint (h : (base ++ extra).names.Nodup) : base.merge extra = base ++ extra := by
  induction extra generalizing base with
  | nil => exact (List.append_nil base).symm
  | cons e rest ih =>
    obtain ⟨k, v⟩ := e
    have hk : k ∉ base.names := by
      intro hmem
      simp only [names, List.map_append, List.map_cons] at h hmem
      exact (List.nodup_append.1 h).2.2 k hmem k List.mem_cons_self rfl
    have hsplit : base ++ (k, v) :: rest = base ++ [(k, v)] ++ rest := by simp
    rw [merge_cons, set_of_not_mem hk, hsplit]
    exact ih (hsplit ▸ h)

theorem ofList_of_nodup (h : extra.names.Nodup) : ofList extra = extra := by
  have hempty : names ([] ++ extra) = extra.names := rfl
  exact merge_of_disjoint (hempty ▸ h)

/-! ## Overriding and extending -/

/-- The fields `extra` override and extend the fields `base`: they are found first, and their new
names come after all that were there. -/
structure Extends (base extra shown : Fields α) : Prop where
  get? : ∀ key, shown.get? key = (extra.get? key).or (base.get? key)
  names : shown.names = base.names ++ extra.names.filter (· ∉ base.names)

theorem extends_merge (h : extra.names.Nodup) : Extends base extra (base.merge extra) := by
  induction extra generalizing base with
  | nil => exact ⟨fun _ => rfl, (List.append_nil _).symm⟩
  | cons e rest ih =>
    obtain ⟨k, v⟩ := e
    obtain ⟨hk, hrest⟩ : k ∉ names rest ∧ (names rest).Nodup := List.nodup_cons.1 h
    obtain ⟨hget, hnames⟩ : Extends (base.set k v) rest ((base.set k v).merge rest) := ih hrest
    refine ⟨fun key => ?_, ?_⟩
    · -- The name that is set first is not set again, since names are distinct.
      rw [merge_cons, hget, get?_set, get?_cons]
      by_cases heq : k = key
      · rw [if_pos heq, if_pos heq, get?_eq_none_iff.2 (heq ▸ hk)]
        rfl
      · rw [if_neg heq, if_neg heq]
    · rw [merge_cons, hnames, names_set]
      by_cases hmem : k ∈ base.names
      · rw [if_pos hmem]
        simp [names_cons, hmem]
      · have hfilter : (names rest).filter (· ∉ base.names ++ [k]) =
            (names rest).filter (· ∉ base.names) := by
          refine List.filter_congr fun name hname => ?_
          have hne : name ≠ k := fun heq => hk (heq ▸ hname)
          simp [hne]
        rw [if_neg hmem, hfilter]
        simp [names_cons, hmem]

/-- Fields that name nothing twice are determined by their names and the values of these. -/
theorem eq_of_get? {fs gs : Fields α} (h : fs.names.Nodup) (hnames : fs.names = gs.names)
    (hget : ∀ key, fs.get? key = gs.get? key) : fs = gs := by
  induction fs generalizing gs with
  | nil =>
    cases gs with
    | nil => rfl
    | cons e rest => cases hnames
  | cons e rest ih =>
    cases gs with
    | nil => cases hnames
    | cons e' rest' =>
      obtain ⟨k, v⟩ := e
      obtain ⟨k', v'⟩ := e'
      obtain ⟨rfl, hrest⟩ : k = k' ∧ names rest = names rest' := List.cons.inj hnames
      obtain ⟨hk, hnodup⟩ : k ∉ names rest ∧ (names rest).Nodup := List.nodup_cons.1 h
      have hv : v = v' := by simpa [get?_cons] using hget k
      have htail : rest = rest' := by
        refine ih hnodup hrest fun key => ?_
        have hkey := hget key
        rw [get?_cons, get?_cons] at hkey
        by_cases heq : k = key
        · rw [get?_eq_none_iff.2 (heq ▸ hk), get?_eq_none_iff.2 (heq ▸ hrest ▸ hk)]
        · rwa [if_neg heq, if_neg heq] at hkey
      rw [hv, htail]

theorem Extends.nodup {shown : Fields α} (h : Extends base extra shown) (hbase : base.names.Nodup)
    (hextra : extra.names.Nodup) : shown.names.Nodup := by
  rw [h.names]
  refine List.nodup_append.2 ⟨hbase, hextra.filter _, ?_⟩
  rintro a ha b hb rfl
  simpa [ha] using (List.mem_filter.1 hb).2

/-- There is one way to override and extend fields. -/
theorem Extends.unique {shown shown' : Fields α} (h : Extends base extra shown)
    (h' : Extends base extra shown') (hbase : base.names.Nodup) (hextra : extra.names.Nodup) :
    shown = shown' :=
  eq_of_get? (h.nodup hbase hextra) (h.names.trans h'.names.symm) fun key =>
    (h.get? key).trans (h'.get? key).symm

end SecretMirror.Fields
