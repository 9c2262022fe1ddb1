import SecretMirror.Proofs.Contract
import SecretMirror.Proofs.Running
import Mathlib.Order.CompleteBooleanAlgebra
import Mathlib.Order.CompletePartialOrder

/-!
# What a program goes through

`Program.trace` lists what a program asks when it is run, with the answers.  Two kinds of facts are
read off it.

A program that asks only requests of some kind (`Program.AsksOnly`) has no others in its trace, and
whatever each of these requests does to the state, reflexively and transitively, the run does
(`AsksOnly.relates`).  To ask only some requests is to keep a contract, so the rules are those of
contracts.

`Program.Yields` says that a program does not get over certain errors: when one of its requests is
answered by such an error, it fails, and with what and in which state depends on the error alone.
The rules follow the operations: what comes after an error does not happen, a handler of errors
decides what they are passed on as, and a clean-up does not stand in their way.
-/

namespace SecretMirror

/-- The contract that permits some requests and expects nothing. -/
def Contract.only {σ : Signature} {ε : Type} (P : σ.Request → Prop) : Contract σ ε Unit where
  permits _ q := P q
  expects _ _ _ := True

namespace Program

variable {σ : Signature} {ε S K α β : Type}
  {handle : (q : σ.Request) → S → Except ε (σ.Answer q) × S}

/-- What a program asks when it is run from a state, with the answers. -/
def trace (handle : (q : σ.Request) → S → Except ε (σ.Answer q) × S) :
    Program σ ε α → S → List (Exchange σ ε)
  | .done _, _ => []
  | .ask q next, s =>
    let (a, t) := handle q s
    ⟨q, a⟩ :: (next a).trace handle t

theorem trace_ask (q : σ.Request) (next : Except ε (σ.Answer q) → Program σ ε α) (s : S) :
    (ask q next).trace handle s =
      ⟨q, (handle q s).1⟩ :: (next (handle q s).1).trace handle (handle q s).2 := rfl

theorem trace_outcome (p : Program σ ε α) (f : Except ε α → Program σ ε β) (s : S) :
    (p.outcome f).trace handle s =
      p.trace handle s ++ (f (p.run handle s).1).trace handle (p.run handle s).2 := by
  induction p generalizing s with
  | done r => rfl
  | ask q next ih =>
    rw [outcome_ask, trace_ask, ih, trace_ask, run_ask, List.cons_append]

theorem trace_bind (p : Program σ ε α) (f : α → Program σ ε β) (s : S) :
    (p >>= f).trace handle s =
      p.trace handle s ++ (resume f (p.run handle s).1).trace handle (p.run handle s).2 := by
  rw [bind_eq_outcome, trace_outcome]

theorem mem_trace_outcome {p : Program σ ε α} {f : Except ε α → Program σ ε β} {s : S}
    {x : Exchange σ ε} (hx : x ∈ p.trace handle s) : x ∈ (p.outcome f).trace handle s := by
  rw [trace_outcome]
  exact List.mem_append_left _ hx

theorem Gives.mem_trace_bind {p : Program σ ε α} {f : α → Program σ ε β} {s t : S} {a : α}
    {x : Exchange σ ε} (hp : p.Gives handle s a t) (hx : x ∈ (f a).trace handle t) :
    x ∈ (p >>= f).trace handle s := by
  rw [trace_bind, hp]
  exact List.mem_append_right _ hx

theorem forall_mem_trace {P : Exchange σ ε → Prop} (h : ∀ q s, P ⟨q, (handle q s).1⟩)
    (p : Program σ ε α) (s : S) : ∀ x ∈ p.trace handle s, P x := by
  induction p generalizing s with
  | done r => exact fun _ hx => absurd hx List.not_mem_nil
  | ask q next ih =>
    rw [trace_ask]
    exact List.forall_mem_cons.2 ⟨h q s, ih _ _⟩

/-! ## Programs that ask only some requests -/

/-- The program asks only requests of some kind, whatever it is answered. -/
abbrev AsksOnly (P : σ.Request → Prop) (p : Program σ ε α) : Prop :=
  p.Behaves (Contract.only P) ()

namespace AsksOnly

variable {P Q : σ.Request → Prop} {p : Program σ ε α}

theorem behaves [Preorder K] {c : Contract σ ε K} (h : p.AsksOnly P)
    (hP : ∀ k q, P q → c.permits k q) (k : K) : p.Behaves c k := by
  induction p generalizing k with
  | done r => exact fun _ _ _ _ => trivial
  | ask q next ih =>
    obtain ⟨hq, hnext⟩ := h () le_rfl
    exact fun l _ => ⟨hP l q hq, fun a _ => ih a (hnext a trivial) l⟩

theorem imp (h : p.AsksOnly P) (hPQ : ∀ q, P q → Q q) : p.AsksOnly Q :=
  h.behaves (fun _ q hq => hPQ q hq) ()

theorem of_mem_trace (h : p.AsksOnly P) {s : S} {x : Exchange σ ε}
    (hx : x ∈ p.trace handle s) : P x.request := by
  induction p generalizing s with
  | done r => cases hx
  | ask q next ih =>
    obtain ⟨hq, hnext⟩ := h () le_rfl
    rw [trace_ask] at hx
    rcases List.mem_cons.1 hx with rfl | hx
    · exact hq
    · exact ih _ (hnext _ trivial) hx

/-- What each of the requests does to the state, the run does, as long as this is a preorder. -/
theorem relates {R : S → S → Prop} (h : p.AsksOnly P) (hrefl : ∀ s, R s s)
    (htrans : ∀ {s t u}, R s t → R t u → R s u) (hstep : ∀ q s, P q → R s (handle q s).2) (s : S) :
    R s (p.run handle s).2 := by
  induction p generalizing s with
  | done r => exact hrefl s
  | ask q next ih =>
    obtain ⟨hq, hnext⟩ := h () le_rfl
    rw [run_ask]
    exact htrans (hstep q s hq) (ih _ (hnext _ trivial) _)

end AsksOnly

/-! ## Errors that end a program -/

/-- Whenever a request is answered by an error `e` of this kind, the program ends with an error `f`
and in a state `t` such that `Q e f t`.  Where no such error occurs nothing is claimed. -/
def Yields (handle : (q : σ.Request) → S → Except ε (σ.Answer q) × S)
    (grave : Exchange σ ε → ε → Prop) (p : Program σ ε α) (s : S) (Q : ε → ε → S → Prop) : Prop :=
  ∀ x ∈ p.trace handle s, ∀ e, grave x e →
    ∃ f, (p.run handle s).1 = .error f ∧ Q e f (p.run handle s).2

variable {grave : Exchange σ ε → ε → Prop}

theorem Yields.imp {p : Program σ ε α} {s : S} {P Q : ε → ε → S → Prop}
    (h : p.Yields handle grave s P) (himp : ∀ e f t, P e f t → Q e f t) :
    p.Yields handle grave s Q := by
  intro x hx e he
  obtain ⟨f, hresult, hstate⟩ := h x hx e he
  exact ⟨f, hresult, himp e f _ hstate⟩

theorem Yields.and_ends {p : Program σ ε α} {s : S} {P : ε → ε → S → Prop}
    {R : Except ε α → S → Prop} (h : p.Yields handle grave s P) (hends : p.Ends handle s R) :
    p.Yields handle grave s fun e f t => P e f t ∧ R (.error f) t := by
  intro x hx e he
  obtain ⟨f, hresult, hstate⟩ := h x hx e he
  refine ⟨f, hresult, hstate, ?_⟩
  rw [← hresult]
  exact hends

/-- A program that asks only requests without such errors has nothing to show. -/
theorem AsksOnly.yields {P : σ.Request → Prop} {p : Program σ ε α} (h : p.AsksOnly P)
    (hP : ∀ x e, grave x e → ¬ P x.request) (s : S) (Q : ε → ε → S → Prop) :
    p.Yields handle grave s Q :=
  fun x hx e he => absurd (h.of_mem_trace hx) (hP x e he)

theorem yields_request {q : σ.Request} {s : S} {Q : ε → ε → S → Prop}
    (h : ∀ e, grave ⟨q, (handle q s).1⟩ e →
      ∃ f, (handle q s).1 = .error f ∧ Q e f (handle q s).2) :
    (request q : Program σ ε (σ.Answer q)).Yields handle grave s Q := by
  intro x hx e he
  obtain rfl := List.mem_singleton.1 hx
  exact h e he

/-- What comes after an error does not happen. -/
theorem yields_bind {p : Program σ ε α} {f : α → Program σ ε β} {s : S} {Q : ε → ε → S → Prop}
    (hp : p.Yields handle grave s Q)
    (hf : ∀ a t, p.Gives handle s a t → (f a).Yields handle grave t Q) :
    (p >>= f).Yields handle grave s Q := by
  intro x hx e he
  rw [trace_bind] at hx
  rw [run_bind]
  rcases List.mem_append.1 hx with hx | hx
  · obtain ⟨e', hresult, hstate⟩ := hp x hx e he
    rw [hresult]
    exact ⟨e', rfl, hstate⟩
  · cases hresult : (p.run handle s).1 with
    | ok a =>
      rw [hresult] at hx
      exact hf a _ (Prod.ext hresult rfl) x hx e he
    | error e' =>
      rw [hresult] at hx
      cases hx

theorem Gives.yields_bind {p : Program σ ε α} {f : α → Program σ ε β} {s t : S} {a : α}
    {Q : ε → ε → S → Prop} (hgives : p.Gives handle s a t) (hp : p.Yields handle grave s Q)
    (hf : (f a).Yields handle grave t Q) : (p >>= f).Yields handle grave s Q := by
  refine Program.yields_bind hp fun a' t' h => ?_
  cases hgives.symm.trans h
  exact hf

/-- A handler of errors that asks nothing grave itself decides how the program ends. -/
theorem yields_recover {p : Program σ ε α} {handler : ε → Program σ ε α} {s : S}
    {P : σ.Request → Prop} {M Q : ε → ε → S → Prop} (hp : p.Yields handle grave s M)
    (hhandler : ∀ e, (handler e).AsksOnly P) (hP : ∀ x e, grave x e → ¬ P x.request)
    (hpasses : ∀ e e' t, M e e' t →
      (handler e').Ends handle t fun r u => ∃ f, r = .error f ∧ Q e f u) :
    (p.recover handler).Yields handle grave s Q := by
  intro x hx e he
  rw [recover, trace_outcome] at hx
  rw [recover, run_outcome]
  rcases List.mem_append.1 hx with hx | hx
  · obtain ⟨e', hresult, hstate⟩ := hp x hx e he
    rw [hresult]
    exact hpasses e e' _ hstate
  · cases hresult : (p.run handle s).1 with
    | ok a =>
      rw [hresult] at hx
      cases hx
    | error e' =>
      rw [hresult] at hx
      exact absurd ((hhandler e').of_mem_trace hx) (hP x e he)

theorem yields_always {p : Program σ ε α} {cleanup : Program σ ε Unit} {s : S}
    {P : σ.Request → Prop} {M Q : ε → ε → S → Prop} (hp : p.Yields handle grave s M)
    (hcleanup : cleanup.AsksOnly P) (hP : ∀ x e, grave x e → ¬ P x.request)
    (hpasses : ∀ e f t, M e f t → cleanup.Ends handle t fun r u => r = .ok () ∧ Q e f u) :
    (p.always cleanup).Yields handle grave s Q := by
  intro x hx e he
  rw [always, trace_outcome] at hx
  rw [always, run_outcome]
  rcases List.mem_append.1 hx with hx | hx
  · obtain ⟨f, hresult, hstate⟩ := hp x hx e he
    have hcleaned : cleanup.Ends handle (p.run handle s).2 fun r u => r = .ok () ∧ Q e f u :=
      hpasses e f _ hstate
    rw [hresult]
    have hend : (cleanup >>= fun _ => (.done (.error f) : Program σ ε α)).Ends handle
        (p.run handle s).2 fun r u => r = .error f ∧ Q e f u := by
      refine ends_bind hcleaned (fun _ t h => ends_done ⟨rfl, h.2⟩) fun _ _ h => ?_
      cases h.1
    exact ⟨f, hend⟩
  · have hcleaned : (cleanup >>= fun _ => (.done (p.run handle s).1 : Program σ ε α)).AsksOnly P :=
      behaves_bind hcleanup fun _ _ _ _ _ _ _ => trivial
    exact absurd (hcleaned.of_mem_trace hx) (hP x e he)

end Program

end SecretMirror
