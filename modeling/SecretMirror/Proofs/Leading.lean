import SecretMirror.Proofs.RunHistory
import SecretMirror.Proofs.Completion

/-!
# Where a program leads

`Program.Leads` says of a program that some medium answers from a state on: however it is answered,
what was exchanged by the end, the result, and the state that is left satisfy some condition.  So it
speaks of the way and of the state at once, where `Program.Enters` is about the way and
`Program.Ends` about the state.

The rules follow the operations.  What a part has exchanged comes before what the rest exchanges,
and the rest starts from where that part leaves the state.  A handler whose answers the medium
allows goes one of these ways (`Leads.of_handle`), so what is shown of all of them holds whenever
the program is run.
-/

namespace SecretMirror.Program

open Interleaving

variable {σ : Signature} {ε α β S T : Type} {m : Medium σ ε S} {s : S}

/-- However the medium answers the program, the exchanges, the result and the state in the end
satisfy `Q`.  Nothing is said of ways on which the program does not end. -/
def Leads (m : Medium σ ε S) (p : Program σ ε α) (s : S)
    (Q : List (Exchange σ ε) → Except ε α → S → Prop) : Prop :=
  ∀ xs r t, p.Completes xs r → m.Grants s xs t → Q xs r t

theorem Leads.imp {p : Program σ ε α} {P Q : List (Exchange σ ε) → Except ε α → S → Prop}
    (h : p.Leads m s P) (himp : ∀ xs r t, P xs r t → Q xs r t) : p.Leads m s Q :=
  fun xs r t hp hm => himp xs r t (h xs r t hp hm)

theorem leads_done {r : Except ε α} {Q : List (Exchange σ ε) → Except ε α → S → Prop}
    (h : Q [] r s) : (done r : Program σ ε α).Leads m s Q := by
  intro xs r' t hp hm
  obtain ⟨rfl, rfl⟩ := completes_done_iff.1 hp
  cases hm
  exact h

theorem leads_request {q : σ.Request} {Q : List (Exchange σ ε) → Except ε (σ.Answer q) → S → Prop}
    (h : ∀ a t, m.answers q s a t → Q [⟨q, a⟩] a t) :
    (request q : Program σ ε (σ.Answer q)).Leads m s Q := by
  intro xs r t hp hm
  obtain rfl := completes_request_iff.1 hp
  obtain ⟨u, hanswer, hrest⟩ := Medium.grants_cons_iff.1 hm
  cases hrest
  exact h r _ hanswer

theorem leads_outcome {p : Program σ ε α} {f : Except ε α → Program σ ε β}
    {P : List (Exchange σ ε) → Except ε α → S → Prop}
    {Q : List (Exchange σ ε) → Except ε β → S → Prop} (hp : p.Leads m s P)
    (hf : ∀ xs a t, P xs a t → (f a).Leads m t fun ys r u => Q (xs ++ ys) r u) :
    (p.outcome f).Leads m s Q := by
  intro zs r u h hm
  obtain ⟨xs, a, ys, hfirst, hlater, rfl⟩ := completes_outcome_iff.1 h
  obtain ⟨t, hxs, hys⟩ := Medium.grants_append_iff.1 hm
  exact hf xs a t (hp xs a t hfirst hxs) ys r u hlater hys

/-- The rest starts from wherever the first part leaves a value; an error is passed on. -/
theorem leads_bind {p : Program σ ε α} {f : α → Program σ ε β}
    {P : List (Exchange σ ε) → Except ε α → S → Prop}
    {Q : List (Exchange σ ε) → Except ε β → S → Prop} (hp : p.Leads m s P)
    (hok : ∀ xs a t, P xs (.ok a) t → (f a).Leads m t fun ys r u => Q (xs ++ ys) r u)
    (herror : ∀ xs e t, P xs (.error e) t → Q xs (.error e) t) : (p >>= f).Leads m s Q := by
  refine leads_outcome hp fun xs a t h => ?_
  cases a with
  | ok a => exact hok xs a t h
  | error e =>
    refine leads_done ?_
    rw [List.append_nil]
    exact herror xs e t h

theorem leads_recover {p : Program σ ε α} {handler : ε → Program σ ε α}
    {P Q : List (Exchange σ ε) → Except ε α → S → Prop} (hp : p.Leads m s P)
    (hok : ∀ xs a t, P xs (.ok a) t → Q xs (.ok a) t)
    (herror : ∀ xs e t, P xs (.error e) t →
      (handler e).Leads m t fun ys r u => Q (xs ++ ys) r u) :
    (p.recover handler).Leads m s Q := by
  refine leads_outcome hp fun xs a t h => ?_
  cases a with
  | ok a =>
    refine leads_done ?_
    rw [List.append_nil]
    exact hok xs a t h
  | error e => exact herror xs e t h

theorem leads_always {p : Program σ ε α} {cleanup : Program σ ε Unit}
    {P Q : List (Exchange σ ε) → Except ε α → S → Prop} (hp : p.Leads m s P)
    (hcleanup : ∀ xs r t, P xs r t →
      cleanup.Leads m t fun ys u v => u = .ok () ∧ Q (xs ++ ys) r v) :
    (p.always cleanup).Leads m s Q := by
  refine leads_outcome hp fun xs r t h => ?_
  refine leads_bind (hcleanup xs r t h) (fun ys _ u h => ?_) fun ys e u h => ?_
  · refine leads_done ?_
    rw [List.append_nil]
    exact h.2
  · cases h.1

theorem AsksOnly.leads {P : σ.Request → Prop} {p : Program σ ε α} (hp : p.AsksOnly P) :
    p.Leads m s fun xs _ t => (∀ x ∈ xs, P x.request) ∧ m.Grants s xs t :=
  fun _ _ _ h hm => ⟨hp.of_follows h, hm⟩

/-- A handler goes one of the ways that the medium allows, if the medium allows its answers as far
as it sees the state. -/
theorem Leads.of_handle {handle : (q : σ.Request) → T → Except ε (σ.Answer q) × T} {view : T → S}
    (hanswers : ∀ q t, m.answers q (view t) (handle q t).1 (view (handle q t).2))
    {p : Program σ ε α} {t : T} {Q : List (Exchange σ ε) → Except ε α → S → Prop}
    (h : p.Leads m (view t) Q) :
    Q (p.trace handle t) (p.run handle t).1 (view (p.run handle t).2) :=
  h _ _ _ (completes_trace handle p t) (m.grants_view hanswers p t)

end SecretMirror.Program
