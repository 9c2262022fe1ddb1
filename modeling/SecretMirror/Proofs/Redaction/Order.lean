import SecretMirror.Proofs.Redaction.Passing

/-!
# The order of the fields

The fields have no order of their own, and what comes out of a redaction may depend on the one that
is taken.  It does where an assignment stands in the value of another: in `data: {key: v`, the sweep
for `data` takes the inner name for its value and leaves `v` to nobody, while the sweep for `key`
leaves its mark behind the name, where the sweep for `data` no longer reaches it.

It does nowhere else.  A text is orderly (`Orderly`) if it can be read from left to right as
characters at which no assignment begins, and assignments in whose value no assignment to another
field begins.  There is one exception: the inner assignment may have the mark as its value already,
one space behind the outer value.  The main result is `redact_order_iff`: all orders agree on a text
just if it is orderly.

* On an orderly text the sweeps in any order do what the reading says (`redactFields_assigns`): the
  sweeps for other fields keep an assignment as one (`AssignsAlone.sweep`), until its own sweep
  replaces it.
* Where another field is assigned in a value, two orders that begin with the two fields differ: the
  one leaves the mark behind the outer value, and the other brings none in (`OrderFree.settled`).
-/

namespace SecretMirror.Redaction

variable {field other text head v s x : List Char} {sep c : Char} {order : List (List Char)}

/-! ## Orderly texts -/

/-- Whatever assignment to a field begins in `v` when `s` follows has the mark as its value, one
space behind `v`. -/
def Settled (field v s : List Char) : Prop :=
  ∀ u v' s', u <:+ v → Assigns field (u ++ s) v' s' → s = ' ' :: (mark ++ s')

/-- The text begins with an assignment to a field, in whose value other fields are settled. -/
def AssignsAlone (field text v s : List Char) : Prop :=
  Assigns field text v s ∧ ∀ other ∈ fields, other ≠ field → Settled other v s

/-- A text that can be read from left to right as characters at which no assignment begins, and
assignments in whose value other fields are settled. -/
inductive Orderly : List Char → Prop
  | nil : Orderly []
  | keep {c : Char} {text : List Char} :
      (∀ field ∈ fields, assignmentStretch? field (c :: text) = none) → Orderly text →
      Orderly (c :: text)
  | assign {field text v s : List Char} : field ∈ fields → AssignsAlone field text v s →
      Orderly s → Orderly text

/-- Every order of the fields leaves the same of a text. -/
def OrderFree (text : List Char) : Prop :=
  ∀ order order' : List (List Char), order.Perm fields → order'.Perm fields →
    redactFields order text = redactFields order' text

/-! ## Rows of sweeps -/

theorem redactFields_cons (field : List Char) (order : List (List Char)) (text : List Char) :
    redactFields (field :: order) text =
      redactFields order ((assignmentForm field).sweep 0 text) := rfl

theorem redactFields_empty (order : List (List Char)) : redactFields order [] = [] := by
  induction order with
  | nil => rfl
  | cons other order ih => exact ih

theorem redactFields_append (y : List Char)
    (h : ∀ other ∈ order, ∀ y, (assignmentForm other).sweep 0 (x ++ y) =
      x ++ (assignmentForm other).sweep 0 y) :
    redactFields order (x ++ y) = x ++ redactFields order y := by
  induction order generalizing y with
  | nil => rfl
  | cons other order ih =>
    obtain ⟨hother, horder⟩ := List.forall_mem_cons.1 h
    rw [redactFields_cons, hother, ih _ horder, redactFields_cons]

section Rows

variable (horder : ∀ other ∈ order, other ∈ fields)
include horder

theorem redactFields_mark (y : List Char) :
    redactFields order (' ' :: (mark ++ y)) = ' ' :: (mark ++ redactFields order y) :=
  redactFields_append (x := ' ' :: mark) y fun other hother y => sweep_mark (horder other hother) y

theorem redactFields_replacement (hfield : field ∈ fields) (hnot : field ∉ order) (y : List Char) :
    redactFields order ((assignmentForm field).replacement ++ y) =
      (assignmentForm field).replacement ++ redactFields order y := by
  apply redactFields_append
  intro other hother
  have hne : other ≠ field := by
    rintro rfl
    exact hnot hother
  exact sweep_replacement (horder other hother) hfield hne

theorem redactFields_kept (hnone : ∀ field ∈ fields, assignmentStretch? field (c :: text) = none) :
    redactFields order (c :: text) = c :: redactFields order text := by
  induction order generalizing text with
  | nil => rfl
  | cons other order ih =>
    obtain ⟨hother, horder⟩ := List.forall_mem_cons.1 horder
    rw [redactFields_cons, Form.sweep_of_none (hnone other hother), ih horder, redactFields_cons]
    exact fun field hfield => assignmentStretch?_of_kept hfield hother (hnone field hfield)

theorem exists_mark_of_redactFields (h : redactFields order s = ' ' :: (mark ++ x)) :
    ∃ t, s = ' ' :: (mark ++ t) := by
  induction order generalizing s with
  | nil => exact ⟨x, h⟩
  | cons other order ih =>
    obtain ⟨hother, horder⟩ := List.forall_mem_cons.1 horder
    obtain ⟨t, ht⟩ := ih horder h
    exact exists_mark_of_sweep hother ht

theorem endsValue_redactFields_iff : EndsValue (redactFields order s) ↔ EndsValue s := by
  induction order generalizing s with
  | nil => exact Iff.rfl
  | cons other order ih =>
    obtain ⟨hother, horder⟩ := List.forall_mem_cons.1 horder
    rw [redactFields_cons, ih horder, endsValue_sweep_iff hother]

end Rows

theorem redactFields_ne_mark {order' : List (List Char)} (horder : ∀ other ∈ order, other ∈ fields)
    (horder' : ∀ other ∈ order', other ∈ fields) (s : List Char) :
    redactFields order s ≠ ' ' :: (mark ++ redactFields order' s) := by
  induction hlength : s.length using Nat.strong_induction_on generalizing s with
  | _ n ih =>
    subst hlength
    intro h
    -- The mark was there in the beginning, and behind it the same would hold.
    obtain ⟨t, rfl⟩ := exists_mark_of_redactFields horder h
    rw [redactFields_mark horder, redactFields_mark horder', List.cons.injEq] at h
    have hrest := List.append_cancel_left h.2
    have hlt : t.length < (' ' :: (mark ++ t)).length := by
      rw [List.length_cons, List.length_append]
      omega
    exact ih t.length hlt t rfl hrest

/-! ## Signs in a value -/

/-- A text that leaves no value but the mark to a sign before it. -/
def AtRest (s : List Char) : Prop := ∀ v t, HasValue s v t → s = ' ' :: (mark ++ t)

theorem AtRest.sweep (hother : other ∈ fields) (h : AtRest s) :
    AtRest ((assignmentForm other).sweep 0 s) := by
  intro v t hvalue
  by_cases hnil : valueBehind s = []
  · have hsame := valueBehind_sweep hother (.inl hnil)
    rw [hvalue.valueBehind_eq, hnil] at hsame
    obtain ⟨w, -, -, hne, -⟩ := hvalue
    exact absurd hsame hne
  · obtain ⟨t', hbefore⟩ := exists_hasValue hnil
    have hmark := h _ t' hbefore
    rw [hmark, sweep_mark hother] at hvalue ⊢
    have hends := endsValue_sweep (respectsValues_assignmentForm hother) hbefore.endsValue
    rw [(hvalue.inj (hasValue_mark hends)).2]

/-- A field is settled in a value if its name and a sign stand only at the end of the value, and
what follows is at rest. -/
theorem settled_iff (hfield : field ∈ fields) (hv : ∀ c ∈ v, isValueChar c = true)
    (hs : EndsValue s) : Settled field v s ↔
      ∀ head sep u, head ++ sep :: u <:+ v → IsNamed field head → (sep = ':' ∨ sep = '=') →
        u = [] ∧ AtRest s := by
  constructor
  · intro h head sep u hu hhead hsep
    have hassigns : ∀ v' s', HasValue (u ++ s) v' s' → s = ' ' :: (mark ++ s') := by
      intro v' s' hvalue
      apply h _ v' s' hu
      rw [List.append_assoc]
      exact .of_hasValue hhead hsep hvalue
    have hnil : u = [] := by
      by_contra hne
      have hself := hassigns u s <| hasValue_of_value hne
        (fun c hc => hv c (hu.subset (List.mem_append_right _ (List.mem_cons_of_mem _ hc)))) hs
      have hlength := congrArg List.length hself
      rw [List.length_cons, List.length_append] at hlength
      omega
    subst hnil
    exact ⟨rfl, hassigns⟩
  · intro h u v' s' hu hassigns
    have hu' : ∀ c ∈ u, isValueChar c = true := fun c hc => hv c (hu.subset hc)
    obtain ⟨head, sep, rest, rfl, hhead, hsep, hvalue⟩ := hassigns.exists_of_append hfield hu' hs
    obtain ⟨rfl, hrest⟩ := h head sep rest hu hhead hsep
    exact hrest v' s' hvalue

/-- Either no assignment to a field begins in `v` when `s` follows, or a first one does, and the
sweep for the field replaces it. -/
theorem exists_first_assigns (hfield : field ∈ fields) (v s : List Char) :
    (∀ u v' s', u <:+ v → ¬ Assigns field (u ++ s) v' s') ∨
    ∃ a u v₁ s₁, v = a ++ u ∧ Assigns field (u ++ s) v₁ s₁ ∧
      (∀ u' v' s', u' <:+ v → Assigns field (u' ++ s) v' s' → u' <:+ u) ∧
      (assignmentForm field).sweep 0 (v ++ s) =
        a ++ ((assignmentForm field).replacement ++ (assignmentForm field).sweep 0 s₁) := by
  induction v with
  | nil =>
    by_cases h : ∃ v₁ s₁, Assigns field s v₁ s₁
    · obtain ⟨v₁, s₁, hassigns⟩ := h
      exact .inr ⟨[], [], v₁, s₁, rfl, hassigns, fun u' _ _ hu' _ => hu',
        sweep_of_assigns hfield hassigns⟩
    · left
      intro u v' s' hu hassigns
      rw [List.suffix_nil] at hu
      subst hu
      exact h ⟨v', s', hassigns⟩
  | cons c v ih =>
    -- Assignments further behind are found by induction, unless one begins right here, which is the
    -- first.
    by_cases h : ∃ v₁ s₁, Assigns field (c :: v ++ s) v₁ s₁
    · obtain ⟨v₁, s₁, hassigns⟩ := h
      exact .inr ⟨[], c :: v, v₁, s₁, rfl, hassigns, fun u' _ _ hu' _ => hu',
        sweep_of_assigns hfield hassigns⟩
    · have hbehind : ∀ u v' s', u <:+ c :: v → Assigns field (u ++ s) v' s' → u <:+ v := by
        intro u v' s' hu hassigns
        rcases List.suffix_cons_iff.1 hu with rfl | hu
        · exact absurd ⟨v', s', hassigns⟩ h
        · exact hu
      rcases ih with hnone | ⟨a, u, v₁, s₁, rfl, hassigns, hfirst, hsweep⟩
      · exact .inl fun u v' s' hu hassigns =>
          hnone u v' s' (hbehind u v' s' hu hassigns) hassigns
      · have hstretch : (assignmentForm field).stretch? (c :: (a ++ u ++ s)) = none :=
          (assignmentStretch?_eq_none_iff hfield).2 fun v' s' h' => h ⟨v', s', h'⟩
        refine .inr ⟨c :: a, u, v₁, s₁, rfl, hassigns, fun u' v' s' hu' h' => ?_, ?_⟩
        · exact hfirst u' v' s' (hbehind u' v' s' hu' h') h'
        · rw [List.cons_append, List.cons_append, Form.sweep_of_none hstretch, hsweep]

/-! ## One assignment -/

theorem append_replacement (other a y : List Char) :
    a ++ ((assignmentForm other).replacement ++ y) =
      a ++ (other ++ [':']) ++ ' ' :: (mark ++ y) := by
  simp [assignmentForm]

theorem isValueChar_of_append_name {a : List Char} (hother : other ∈ fields)
    (ha : ∀ c ∈ a, isValueChar c = true) : ∀ c ∈ a ++ (other ++ [':']), isValueChar c = true := by
  have hname : ∀ other ∈ fields, (other ++ [':']).all isValueChar := by decide
  intro c hc
  rcases List.mem_append.1 hc with hc | hc
  · exact ha c hc
  · exact List.all_eq_true.1 (hname other hother) c hc

/-- A field that is settled in a value stays so when the end of the value becomes the name and the
sign of a replacement. -/
theorem Settled.of_replacement {a u : List Char} (hother : other ∈ fields) (hfield : field ∈ fields)
    (hv : ∀ c ∈ a ++ u, isValueChar c = true) (hs : EndsValue s) (hne : u ≠ [])
    (h : Settled field (a ++ u) s) (hv' : ∀ c ∈ a ++ (other ++ [':']), isValueChar c = true)
    (hx : EndsValue x) (hrest : AtRest x) : Settled field (a ++ (other ++ [':'])) x := by
  rw [settled_iff hfield hv' hx]
  rintro head sep rest ⟨k, hk⟩ hhead hsep
  refine ⟨?_, hrest⟩
  have hborder : sep ∉ other := sign_not_mem (not_isBorder_of_mem hother) hsep
  rcases List.eq_nil_or_concat' rest with rfl | ⟨rest, z, rfl⟩
  · rfl
  · exfalso
    have hfront : k ++ head ++ sep :: rest = a ++ other := by
      have hsplit : k ++ head ++ sep :: rest ++ [z] = a ++ other ++ [':'] := by simpa using hk
      exact (List.append_inj' hsplit rfl).1
    rcases List.append_eq_append_iff.1 hfront with ⟨l, rfl, hl⟩ | ⟨l, -, rfl⟩
    · cases l with
      | nil =>
        rw [List.nil_append] at hl
        exact hborder (hl ▸ List.mem_cons_self ..)
      | cons d l =>
        -- The sign was there before, and the rest of the value behind it.
        obtain ⟨rfl, -⟩ := List.cons.inj hl
        have hsuffix : head ++ sep :: (l ++ u) <:+ k ++ head ++ sep :: l ++ u := ⟨k, by simp⟩
        obtain ⟨hnil, -⟩ := (settled_iff hfield hv hs).1 h head sep _ hsuffix hhead hsep
        exact hne (List.append_eq_nil_iff.1 hnil).2
    · exact hborder (List.mem_append_right _ (List.mem_cons_self ..))

/-- The sweep for another field keeps an assignment that stands alone. -/
theorem AssignsAlone.sweep (hfield : field ∈ fields) (hother : other ∈ fields)
    (hne : other ≠ field) (h : AssignsAlone field text v s) :
    ∃ v', AssignsAlone field ((assignmentForm other).sweep 0 text) v'
      ((assignmentForm other).sweep 0 s) := by
  obtain ⟨⟨head, sep, w, rfl, hhead, hsep, hw, hnil, hv, hs⟩, hsettled⟩ := h
  have hs' := endsValue_sweep (respectsValues_assignmentForm hother) hs
  rw [sweep_of_name hother hfield hne hhead hsep hw]
  have hassigns : ∀ v', v' ≠ [] → (∀ c ∈ v', isValueChar c = true) →
      (assignmentForm other).sweep 0 (v ++ s) = v' ++ (assignmentForm other).sweep 0 s →
      Assigns field (head ++ sep :: (w ++ (assignmentForm other).sweep 0 (v ++ s))) v'
        ((assignmentForm other).sweep 0 s) := by
    intro v' hnil' hv' hsweep
    rw [hsweep]
    exact ⟨head, sep, w, rfl, hhead, hsep, hw, hnil', hv', hs'⟩
  -- The value may end in the name and the sign of the other field.  Everything before that is
  -- passed over.
  rcases exists_first_assigns hother v s with hnone | ⟨a, u, v₁, s₁, rfl, hfirst, -, hsweep⟩
  · -- Nothing is replaced in the value.
    refine ⟨v, hassigns v hnil hv (Form.sweep_append fun u hu _ => ?_), fun third hthird hne => ?_⟩
    · exact (assignmentStretch?_eq_none_iff hother).2 fun v' s' =>
        hnone u v' s' ((List.mem_tails _ _).1 hu)
    · rw [settled_iff hthird hv hs']
      intro head' sep' u hu hhead' hsep'
      obtain ⟨rfl, hrest⟩ :=
        (settled_iff hthird hv hs).1 (hsettled third hthird hne) head' sep' u hu hhead' hsep'
      exact ⟨rfl, hrest.sweep hother⟩
  · -- The name at the end of the value is replaced, and the mark behind it stays.
    have hu : ∀ c ∈ u, isValueChar c = true := fun c hc => hv c (List.mem_append_right _ hc)
    obtain ⟨head', sep', rest, rfl, hhead', hsep', -⟩ := hfirst.exists_of_append hother hu hs
    obtain ⟨-, hrest⟩ := (settled_iff hother hv hs).1 (hsettled other hother hne) head' sep' rest
      (List.suffix_append _ _) hhead' hsep'
    have hmark := hsettled other hother hne _ _ _ (List.suffix_append _ _) hfirst
    have hvalue := isValueChar_of_append_name hother fun c hc => hv c (List.mem_append_left _ hc)
    refine ⟨a ++ (other ++ [':']), hassigns _ (by simp) hvalue ?_, fun third hthird hne => ?_⟩
    · rw [hsweep, hmark, sweep_mark hother, append_replacement]
    · exact (hsettled third hthird hne).of_replacement hother hthird hv hs (by simp) hvalue hs'
        (hrest.sweep hother)

/-- What a row that has the field makes of an assignment that stands alone, wherever in the row the
field comes. -/
theorem redactFields_assigns (horder : ∀ other ∈ order, other ∈ fields) (hnodup : order.Nodup)
    (hmem : field ∈ order) (h : AssignsAlone field text v s) :
    redactFields order text = (assignmentForm field).replacement ++ redactFields order s := by
  have hfield := horder field hmem
  induction order generalizing text v s with
  | nil => exact absurd hmem List.not_mem_nil
  | cons other order ih =>
    obtain ⟨hother, horder⟩ := List.forall_mem_cons.1 horder
    obtain ⟨hnot, hnodup⟩ := List.nodup_cons.1 hnodup
    rw [redactFields_cons, redactFields_cons]
    by_cases hsame : other = field
    · subst hsame
      rw [sweep_of_assigns hother h.1, redactFields_replacement horder hother hnot]
    · obtain ⟨v', h'⟩ := h.sweep hfield hother hsame
      exact ih horder hnodup (List.mem_of_ne_of_mem (Ne.symm hsame) hmem) h'

/-! ## All orders -/

theorem nodup_fields : fields.Nodup := by decide

theorem orderFree_iff_of_append
    (h : ∀ order : List (List Char), order.Perm fields →
      redactFields order text = x ++ redactFields order s) : OrderFree text ↔ OrderFree s := by
  constructor
  · intro hfree order order' hperm hperm'
    have hsame := hfree order order' hperm hperm'
    rw [h order hperm, h order' hperm'] at hsame
    exact List.append_cancel_left hsame
  · intro hfree order order' hperm hperm'
    rw [h order hperm, h order' hperm', hfree order order' hperm hperm']

theorem orderFree_cons_iff
    (hnone : ∀ field ∈ fields, assignmentStretch? field (c :: text) = none) :
    OrderFree (c :: text) ↔ OrderFree text :=
  orderFree_iff_of_append (x := [c]) fun _ hperm =>
    redactFields_kept (fun _ => hperm.mem_iff.1) hnone

theorem AssignsAlone.orderFree_iff (hfield : field ∈ fields) (h : AssignsAlone field text v s) :
    OrderFree text ↔ OrderFree s :=
  orderFree_iff_of_append fun _ hperm =>
    redactFields_assigns (fun _ => hperm.mem_iff.1) (hperm.nodup_iff.2 nodup_fields)
      (hperm.mem_iff.2 hfield) h

theorem Orderly.orderFree (h : Orderly text) : OrderFree text := by
  induction h with
  | nil =>
    intro order order' _ _
    rw [redactFields_empty, redactFields_empty]
  | keep hnone _ ih => exact (orderFree_cons_iff hnone).2 ih
  | assign hfield halone _ ih => exact (halone.orderFree_iff hfield).2 ih

/-- An order that takes another field before the field of an assignment leaves the mark behind the
value if the other field is assigned in it. -/
theorem redactFields_inner {a u s₁ : List Char} (hfield : field ∈ fields) (hother : other ∈ fields)
    (hne : other ≠ field) (horder : ∀ third ∈ order, third ∈ fields) (hnot : field ∉ order)
    (h : Assigns field text (a ++ u) s)
    (hsweep : (assignmentForm other).sweep 0 (a ++ u ++ s) =
      a ++ ((assignmentForm other).replacement ++ (assignmentForm other).sweep 0 s₁)) :
    redactFields (other :: field :: order) text = (assignmentForm field).replacement ++
      ' ' :: (mark ++ redactFields (other :: field :: order) s₁) := by
  obtain ⟨head, sep, w, rfl, hhead, hsep, hw, -, hv, -⟩ := h
  have hvalue := isValueChar_of_append_name hother fun c hc => hv c (List.mem_append_left _ hc)
  rw [redactFields_cons, redactFields_cons, sweep_of_name hother hfield hne hhead hsep hw, hsweep,
    append_replacement]
  generalize hs₂ : (assignmentForm other).sweep 0 s₁ = s₂
  have hspace : EndsValue (' ' :: (mark ++ s₂)) := by
    rintro c ⟨⟩
    rfl
  have hassigns : Assigns field
      (head ++ sep :: (w ++ (a ++ (other ++ [':']) ++ ' ' :: (mark ++ s₂))))
      (a ++ (other ++ [':'])) (' ' :: (mark ++ s₂)) :=
    ⟨head, sep, w, rfl, hhead, hsep, hw, by simp, hvalue, hspace⟩
  rw [sweep_of_assigns hfield hassigns, sweep_mark hfield,
    redactFields_replacement horder hfield hnot, redactFields_mark horder, ← hs₂,
    ← redactFields_cons, ← redactFields_cons]

/-- If another field is assigned in the value of an assignment, there are two orders of which only
one leaves the mark behind the value. -/
theorem OrderFree.exists_orders {a u s₁ : List Char} (hfield : field ∈ fields)
    (hother : other ∈ fields) (hne : other ≠ field) (h : OrderFree text)
    (hassigns : Assigns field text (a ++ u) s)
    (hsweep : (assignmentForm other).sweep 0 (a ++ u ++ s) =
      a ++ ((assignmentForm other).replacement ++ (assignmentForm other).sweep 0 s₁)) :
    ∃ order order' : List (List Char), (∀ third ∈ order, third ∈ fields) ∧
      (∀ third ∈ order', third ∈ fields) ∧
      redactFields order s = ' ' :: (mark ++ redactFields order' s₁) := by
  obtain ⟨order, hperm⟩ : ∃ order, (field :: other :: order).Perm fields := by
    have hmem : other ∈ fields.erase field := (List.mem_erase_of_ne hne).2 hother
    exact ⟨(fields.erase field).erase other,
      ((List.perm_cons_erase hmem).symm.cons field).trans (List.perm_cons_erase hfield).symm⟩
  have hperm' : (other :: field :: order).Perm fields := (List.Perm.swap ..).trans hperm
  have hfields : ∀ third ∈ field :: other :: order, third ∈ fields := fun third => hperm.mem_iff.1
  obtain ⟨-, hfields'⟩ := List.forall_mem_cons.1 hfields
  obtain ⟨-, horder⟩ := List.forall_mem_cons.1 hfields'
  have hnot : field ∉ other :: order := (List.nodup_cons.1 (hperm.nodup_iff.2 nodup_fields)).1
  refine ⟨field :: other :: order, other :: field :: order, hfields, fun third => hperm'.mem_iff.1,
    ?_⟩
  have hsame := h _ _ hperm hperm'
  have hnot' : field ∉ order := List.not_mem_of_not_mem_cons hnot
  rw [redactFields_inner hfield hother hne horder hnot' hassigns hsweep,
    redactFields_cons, sweep_of_assigns hfield hassigns,
    redactFields_replacement hfields' hfield hnot, ← redactFields_cons] at hsame
  exact List.append_cancel_left hsame

/-- Two orders that differ only by the mark of an inner assignment do not differ if this was there
before. -/
theorem eq_mark_of_redactFields_eq {order' : List (List Char)} {u s₁ : List Char}
    (horder : ∀ other ∈ order, other ∈ fields) (horder' : ∀ other ∈ order', other ∈ fields)
    (hu : ∀ c ∈ u, isValueChar c = true) (hs : EndsValue s) (hvalue : HasValue (u ++ s) v s₁)
    (h : redactFields order s = ' ' :: (mark ++ redactFields order' s₁)) :
    u = [] ∧ s = ' ' :: (mark ++ s₁) := by
  have hnil : u = [] := by
    by_contra hne
    obtain ⟨-, rfl⟩ := (hasValue_of_value hne hu hs).inj hvalue
    exact redactFields_ne_mark horder horder' s h
  subst hnil
  refine ⟨rfl, ?_⟩
  obtain ⟨t, rfl⟩ := exists_mark_of_redactFields horder h
  rw [redactFields_mark horder, List.cons.injEq] at h
  have hrest : redactFields order t = redactFields order' s₁ := List.append_cancel_left h.2
  -- The value ends behind the mark, since it does in what comes out.
  have hends : EndsValue t := by
    rw [← endsValue_redactFields_iff horder, hrest, endsValue_redactFields_iff horder']
    exact hvalue.endsValue
  rw [((hasValue_mark hends).inj hvalue).2]

theorem eq_nil_of_isSuffix_sign {head' rest : List Char} {sep' : Char}
    (hplain : ∀ c ∈ head, isBorder c = false) (hsep : sep' = ':' ∨ sep' = '=')
    (h : head' ++ sep' :: rest <:+ head ++ [sep]) : rest = [] := by
  rcases List.eq_nil_or_concat' rest with rfl | ⟨rest, z, rfl⟩
  · rfl
  · exfalso
    obtain ⟨k, hk⟩ := h
    have hsplit : k ++ head' ++ sep' :: rest ++ [z] = head ++ [sep] := by simpa using hk
    have hmem : sep' ∈ head := by
      rw [← (List.append_inj' hsplit rfl).1]
      exact List.mem_append_right _ (List.mem_cons_self ..)
    exact sign_not_mem hplain hsep hmem

/-- Where all orders agree, the other fields are settled in the value of an assignment at the
beginning. -/
theorem OrderFree.settled (hfield : field ∈ fields) (hother : other ∈ fields)
    (hne : other ≠ field) (h : OrderFree text) (hassigns : Assigns field text v s) :
    Settled other v s := by
  obtain ⟨hv, hs⟩ : (∀ c ∈ v, isValueChar c = true) ∧ EndsValue s := by
    obtain ⟨-, -, -, -, -, -, -, -, hv, hs⟩ := hassigns
    exact ⟨hv, hs⟩
  rcases exists_first_assigns hother v s with hnone | ⟨a, u, v₁, s₁, rfl, hfirst, hlongest, hsweep⟩
  · exact fun u v' s' hu hinner => absurd hinner (hnone u v' s' hu)
  · obtain ⟨order, order', horder, horder', hsame⟩ :=
      h.exists_orders hfield hother hne hassigns hsweep
    have hu : ∀ c ∈ u, isValueChar c = true := fun c hc => hv c (List.mem_append_right _ hc)
    obtain ⟨head, sep, rest, rfl, hhead, -, hvalue⟩ := hfirst.exists_of_append hother hu hs
    obtain ⟨rfl, hmark⟩ := eq_mark_of_redactFields_eq horder horder'
      (fun c hc => hu c (List.mem_append_right _ (List.mem_cons_of_mem _ hc))) hs hvalue hsame
    -- Whatever else is assigned in the value is so with the sign of the first assignment.
    intro u' v' s' hu' hinner
    have hsuffix := hlongest u' v' s' hu' hinner
    obtain ⟨head', sep', rest', rfl, -, hsep', hvalue'⟩ :=
      hinner.exists_of_append hother (fun c hc => hv c (hu'.subset hc)) hs
    obtain rfl := eq_nil_of_isSuffix_sign (hhead.not_isBorder hother) hsep' hsuffix
    rw [(hvalue'.inj hvalue).2]
    exact hmark

theorem OrderFree.orderly (h : OrderFree text) : Orderly text := by
  induction hlength : text.length using Nat.strong_induction_on generalizing text with
  | _ n ih =>
    subst hlength
    -- An assignment at the beginning is read as a whole, and what is behind it is again free of the
    -- order.
    by_cases hassigns : ∃ field ∈ fields, ∃ v s, Assigns field text v s
    · obtain ⟨field, hfield, v, s, hassigns⟩ := hassigns
      have halone : AssignsAlone field text v s :=
        ⟨hassigns, fun other hother hne => h.settled hfield hother hne hassigns⟩
      have hlt : s.length < text.length := by
        obtain ⟨head, sep, w, rfl, -⟩ := hassigns
        simp only [List.length_append, List.length_cons]
        omega
      exact .assign hfield halone (ih s.length hlt ((halone.orderFree_iff hfield).1 h) rfl)
    · cases text with
      | nil => exact .nil
      | cons c text =>
        have hnone : ∀ field ∈ fields, assignmentStretch? field (c :: text) = none := by
          intro field hfield
          rw [assignmentStretch?_eq_none_iff hfield]
          exact fun v s h' => hassigns ⟨field, hfield, v, s, h'⟩
        exact .keep hnone (ih text.length (Nat.lt_succ_self _) ((orderFree_cons_iff hnone).1 h) rfl)

/-- Redaction leaves the same of a text in every order of the fields just if the text is orderly, as
the sweeps for key material leave it to those for the fields.  So the order matters exactly where
one assignment stands in the value of another. -/
theorem redact_order_iff (text : List Char) :
    ((∀ order order' : List (List Char), order.Perm fields → order'.Perm fields →
        redactFields order text = redactFields order' text) ↔ Orderly text) ∧
    ((∀ order order' : List (List Char), order.Perm fields → order'.Perm fields →
        redactWith order text = redactWith order' text) ↔
      Orderly (keyWords.foldl redactKey text)) :=
  ⟨⟨OrderFree.orderly, Orderly.orderFree⟩, ⟨OrderFree.orderly, Orderly.orderFree⟩⟩

/-- The order matters for `data: {encryption-config: c2VjcmV0}`. -/
theorem not_redact_order :
    ¬ ∀ (text : List Char) (order order' : List (List Char)), order.Perm fields →
      order'.Perm fields → redactWith order text = redactWith order' text := by
  intro h
  have hsame := h "data: {encryption-config: c2VjcmV0}".toList fields fields.reverse
    (List.Perm.refl fields) (List.reverse_perm fields)
  exact absurd hsame (by decide +kernel)

end SecretMirror.Redaction
