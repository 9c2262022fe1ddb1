import SecretMirror.Proofs.Completion

/-!
# What a program enters

A view picks entries from the exchanges of a program, such as what it has counted and logged.
`Program.Enters` says that however the program is led to its end, its entries and its result satisfy
some condition, provided that every exchange on the way can be trusted.  The surroundings are not
described in any other way: what they may answer is what is trusted.

The rules follow the operations.  What comes later adds to what was entered before, an error ends a
sequence, and a clean-up that never fails leaves the result as it is.  A program that asks only
requests which the view passes over enters nothing (`AsksOnly.enters`).
-/

namespace SecretMirror.Program

variable {σ : Signature} {ε α β E : Type} {trusted : Exchange σ ε → Prop}
  {view : Exchange σ ε → Option E}

/-- However the program completes with exchanges that can be trusted, what the view picks from them
and the result satisfy `Q`.  What the surroundings answer is not described in any other way. -/
def Enters (trusted : Exchange σ ε → Prop) (view : Exchange σ ε → Option E) (p : Program σ ε α)
    (Q : List E → Except ε α → Prop) : Prop :=
  ∀ xs r, p.Completes xs r → (∀ x ∈ xs, trusted x) → Q (xs.filterMap view) r

theorem Enters.imp {p : Program σ ε α} {P Q : List E → Except ε α → Prop}
    (h : p.Enters trusted view P) (himp : ∀ es r, P es r → Q es r) : p.Enters trusted view Q :=
  fun xs r hp htrusted => himp _ r (h xs r hp htrusted)

theorem enters_done {r : Except ε α} {Q : List E → Except ε α → Prop} (h : Q [] r) :
    (done r : Program σ ε α).Enters trusted view Q := by
  intro xs r' hp _
  obtain ⟨rfl, rfl⟩ := completes_done_iff.1 hp
  exact h

theorem enters_request {q : σ.Request} {Q : List E → Except ε (σ.Answer q) → Prop}
    (h : ∀ a, trusted ⟨q, a⟩ → Q (view ⟨q, a⟩).toList a) :
    (request q : Program σ ε (σ.Answer q)).Enters trusted view Q := by
  intro xs r hp htrusted
  obtain rfl := completes_request_iff.1 hp
  have hr := h r (htrusted _ (List.mem_cons_self ..))
  cases hview : view ⟨q, r⟩ with
  | none =>
    rw [hview] at hr
    rw [List.filterMap_cons_none hview]
    exact hr
  | some e =>
    rw [hview] at hr
    rw [List.filterMap_cons_some hview]
    exact hr

theorem enters_outcome {p : Program σ ε α} {f : Except ε α → Program σ ε β}
    {P : List E → Except ε α → Prop} {Q : List E → Except ε β → Prop}
    (hp : p.Enters trusted view P)
    (hf : ∀ es a, P es a → (f a).Enters trusted view fun fs r => Q (es ++ fs) r) :
    (p.outcome f).Enters trusted view Q := by
  intro zs r h htrusted
  obtain ⟨xs, a, ys, hfirst, hlater, rfl⟩ := completes_outcome_iff.1 h
  obtain ⟨hxs, hys⟩ := List.forall_mem_append.1 htrusted
  rw [List.filterMap_append]
  exact hf _ a (hp xs a hfirst hxs) ys r hlater hys

theorem enters_bind {p : Program σ ε α} {f : α → Program σ ε β}
    {P : List E → Except ε α → Prop} {Q : List E → Except ε β → Prop}
    (hp : p.Enters trusted view P)
    (hok : ∀ es a, P es (.ok a) → (f a).Enters trusted view fun fs r => Q (es ++ fs) r)
    (herror : ∀ es e, P es (.error e) → Q es (.error e)) :
    (p >>= f).Enters trusted view Q := by
  refine enters_outcome hp fun es a ha => ?_
  cases a with
  | ok a => exact hok es a ha
  | error e =>
    refine enters_done ?_
    rw [List.append_nil]
    exact herror es e ha

theorem enters_recover {p : Program σ ε α} {handler : ε → Program σ ε α}
    {P Q : List E → Except ε α → Prop} (hp : p.Enters trusted view P)
    (hok : ∀ es a, P es (.ok a) → Q es (.ok a))
    (herror : ∀ es e, P es (.error e) →
      (handler e).Enters trusted view fun fs r => Q (es ++ fs) r) :
    (p.recover handler).Enters trusted view Q := by
  refine enters_outcome hp fun es a ha => ?_
  cases a with
  | ok a =>
    refine enters_done ?_
    rw [List.append_nil]
    exact hok es a ha
  | error e => exact herror es e ha

/-- A clean-up that never fails leaves the result as it is, and its entries come last. -/
theorem enters_always {p : Program σ ε α} {cleanup : Program σ ε Unit}
    {P Q : List E → Except ε α → Prop} (hp : p.Enters trusted view P)
    (hcleanup : ∀ es r, P es r →
      cleanup.Enters trusted view fun fs u => u = .ok () ∧ Q (es ++ fs) r) :
    (p.always cleanup).Enters trusted view Q := by
  refine enters_outcome hp fun es r hr => ?_
  refine enters_bind (hcleanup es r hr) (fun fs _ h => ?_) fun fs e h => ?_
  · refine enters_done ?_
    rw [List.append_nil]
    exact h.2
  · cases h.1

theorem AsksOnly.enters {P : σ.Request → Prop} {p : Program σ ε α} (hp : p.AsksOnly P)
    (hview : ∀ x, P x.request → view x = none) :
    p.Enters trusted view fun es _ => es = [] := by
  intro xs r h _
  rw [List.filterMap_eq_nil_iff]
  exact fun x hx => hview x (hp.of_follows h x hx)

/-- What enters nothing may go before, whatever it comes to. -/
theorem AsksOnly.enters_bind {P : σ.Request → Prop} {p : Program σ ε α}
    {f : α → Program σ ε β} {Q : List E → Except ε β → Prop} (hp : p.AsksOnly P)
    (hview : ∀ x, P x.request → view x = none) (hok : ∀ a, (f a).Enters trusted view Q)
    (herror : ∀ e, Q [] (.error e)) : (p >>= f).Enters trusted view Q := by
  refine Program.enters_bind (hp.enters hview) (fun es a hes => ?_) fun es e hes => ?_
  · subst hes
    exact hok a
  · subst hes
    exact herror e

end SecretMirror.Program
