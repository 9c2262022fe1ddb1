import SecretMirror.Proofs.Tracing

/-!
# Two programs in step

Two programs go in step (`Program.InStep`) if, request by request, they ask what corresponds as long
as their answers correspond, and end with results that correspond: with the same error, or with
values that are related (`Agree`).  What corresponds is said by a `Pairing`.  To go in step is
defined by recursion on both programs, so it composes along `outcome`, `bind` and the other
operations, and a program goes in step with itself as long as it asks only what is answered the same
on both sides (`inStep_self`).

If the answers of a handler correspond and keep two states related, then runs of two programs in
step from related states end in related states with results that correspond (`InStep.run`).
-/

namespace SecretMirror

/-- The same error, or values that are related.  Errors are never related otherwise, so two programs
that agree fail together. -/
inductive Agree {ε α β : Type} (R : α → β → Prop) : Except ε α → Except ε β → Prop where
  | ok {a : α} {b : β} (h : R a b) : Agree R (.ok a) (.ok b)
  | error (e : ε) : Agree R (.error e) (.error e)

namespace Agree

variable {ε δ α β γ κ : Type} {R : α → β → Prop} {r : Except ε α} {r' : Except ε β}

theorem imp {Q : α → β → Prop} (h : Agree R r r') (himp : ∀ a b, R a b → Q a b) :
    Agree Q r r' := by
  cases h with
  | ok h => exact .ok (himp _ _ h)
  | error e => exact .error e

theorem refl {Q : α → α → Prop} {r : Except ε α} (h : ∀ a, r = .ok a → Q a a) : Agree Q r r := by
  cases r with
  | ok a => exact .ok (h a rfl)
  | error e => exact .error e

theorem bind {Q : γ → κ → Prop} {f : α → Except ε γ} {g : β → Except ε κ} (h : Agree R r r')
    (hfg : ∀ a b, R a b → Agree Q (f a) (g b)) : Agree Q (r.bind f) (r'.bind g) := by
  cases h with
  | ok h => exact hfg _ _ h
  | error e => exact .error e

theorem bind_same {Q : γ → κ → Prop} {f : α → Except ε γ} {g : α → Except ε κ}
    (hfg : ∀ a, Agree Q (f a) (g a)) : Agree Q (r.bind f) (r.bind g) := by
  cases r with
  | ok a => exact hfg a
  | error e => exact .error e

theorem map {Q : γ → κ → Prop} {f : α → γ} {g : β → κ} (h : Agree R r r')
    (hfg : ∀ a b, R a b → Q (f a) (g b)) : Agree Q (r.map f) (r'.map g) := by
  cases h with
  | ok h => exact .ok (hfg _ _ h)
  | error e => exact .error e

theorem mapError (h : Agree R r r') (f : ε → δ) : Agree R (r.mapError f) (r'.mapError f) := by
  cases h with
  | ok h => exact .ok h
  | error e => exact .error (f e)

end Agree

/-- What corresponds when two programs go in step: requests, and requests with their answers. -/
structure Pairing (σ : Signature) (ε : Type) where
  asks : σ.Request → σ.Request → Prop
  meets : Exchange σ ε → Exchange σ ε → Prop

/-- The request may be asked on both sides and is answered the same. -/
structure Pairing.Fixes {σ : Signature} {ε : Type} (c : Pairing σ ε) (q : σ.Request) : Prop where
  asks : c.asks q q
  meets : ∀ a a', c.meets ⟨q, a⟩ ⟨q, a'⟩ → a = a'

namespace Program

variable {σ : Signature} {ε S α β γ κ : Type} {c : Pairing σ ε}

/-- The programs ask what corresponds as long as their answers correspond, and end with the same
error or with values that are related.  It is defined by recursion on both programs at once, which
is possible because they ask in turn. -/
def InStep (c : Pairing σ ε) (R : α → β → Prop) : Program σ ε α → Program σ ε β → Prop
  | .done r, .done r' => Agree R r r'
  | .ask q next, .ask q' next' =>
    c.asks q q' ∧ ∀ a a', c.meets ⟨q, a⟩ ⟨q', a'⟩ → (next a).InStep c R (next' a')
  | _, _ => False

/-! ## Along the operations on programs -/

theorem inStep_pure {R : α → β → Prop} {a : α} {b : β} (h : R a b) :
    (pure a : Program σ ε α).InStep c R (pure b) := Agree.ok h

theorem inStep_fail {R : α → β → Prop} (e : ε) :
    (fail e : Program σ ε α).InStep c R (fail e) := Agree.error e

theorem inStep_ofExcept {R : α → β → Prop} {r : Except ε α} {r' : Except ε β} (h : Agree R r r') :
    (ofExcept r : Program σ ε α).InStep c R (ofExcept r') := h

theorem inStep_request {q q' : σ.Request} {R : σ.Answer q → σ.Answer q' → Prop}
    (hq : c.asks q q') (ha : ∀ a a', c.meets ⟨q, a⟩ ⟨q', a'⟩ → Agree R a a') :
    (request q : Program σ ε (σ.Answer q)).InStep c R (request q') :=
  ⟨hq, ha⟩

/-- What follows goes on from results that correspond. -/
theorem inStep_outcome {R : α → β → Prop} {Q : γ → κ → Prop} {p : Program σ ε α}
    {p' : Program σ ε β} {f : Except ε α → Program σ ε γ} {f' : Except ε β → Program σ ε κ}
    (hp : p.InStep c R p') (hf : ∀ r r', Agree R r r' → (f r).InStep c Q (f' r')) :
    (p.outcome f).InStep c Q (p'.outcome f') := by
  induction p generalizing p' with
  | done r =>
    cases p' with
    | done r' => exact hf r r' hp
    | ask q' next' => exact hp.elim
  | ask q next ih =>
    cases p' with
    | done r' => exact hp.elim
    | ask q' next' => exact ⟨hp.1, fun a a' ha => ih a (hp.2 a a' ha)⟩

theorem inStep_bind {R : α → β → Prop} {Q : γ → κ → Prop} {p : Program σ ε α}
    {p' : Program σ ε β} {f : α → Program σ ε γ} {f' : β → Program σ ε κ}
    (hp : p.InStep c R p') (hf : ∀ a b, R a b → (f a).InStep c Q (f' b)) :
    (p >>= f).InStep c Q (p' >>= f') := by
  rw [bind_eq_outcome, bind_eq_outcome]
  refine inStep_outcome hp fun r r' hr => ?_
  cases hr with
  | ok h => exact hf _ _ h
  | error e => exact inStep_fail e

theorem inStep_recover {R : α → β → Prop} {p : Program σ ε α} {p' : Program σ ε β}
    {handler : ε → Program σ ε α} {handler' : ε → Program σ ε β} (hp : p.InStep c R p')
    (hhandler : ∀ e, (handler e).InStep c R (handler' e)) :
    (p.recover handler).InStep c R (p'.recover handler') := by
  refine inStep_outcome hp fun r r' hr => ?_
  cases hr with
  | ok h => exact inStep_pure h
  | error e => exact hhandler e

theorem inStep_always {R : α → β → Prop} {p : Program σ ε α} {p' : Program σ ε β}
    {cleanup cleanup' : Program σ ε Unit} (hp : p.InStep c R p')
    (hcleanup : cleanup.InStep c Eq cleanup') :
    (p.always cleanup).InStep c R (p'.always cleanup') :=
  inStep_outcome hp fun _ _ hr => inStep_bind hcleanup fun _ _ _ => inStep_ofExcept hr

/-- A program goes in step with itself if all that it asks is answered the same on both sides.  So
only requests whose answers differ need a proof of their own. -/
theorem inStep_self {p : Program σ ε α} (hp : p.AsksOnly c.Fixes) : p.InStep c Eq p := by
  induction p with
  | done r => exact Agree.refl fun _ _ => rfl
  | ask q next ih =>
    obtain ⟨hq, hnext⟩ := hp () le_rfl
    refine ⟨hq.asks, fun a a' ha => ?_⟩
    obtain rfl := hq.meets a a' ha
    exact ih a (hnext a trivial)

/-! ## Runs -/

/-- Runs of two programs in step keep states related if the answers correspond; only the exchanges
of these runs have to meet what the pairing wants. -/
theorem InStep.run {R : S → S → Prop} {alike : Exchange σ ε → Exchange σ ε → Prop}
    {handle : (q : σ.Request) → S → Except ε (σ.Answer q) × S}
    (hanswers : ∀ {q q' s s'}, R s s' → c.asks q q' →
      alike ⟨q, (handle q s).1⟩ ⟨q', (handle q' s').1⟩ ∧ R (handle q s).2 (handle q' s').2)
    {Q : α → β → Prop} {p : Program σ ε α} {p' : Program σ ε β} {s s' : S}
    (hp : p.InStep c Q p') (hs : R s s')
    (hmeets : ∀ x ∈ p.trace handle s, ∀ x' ∈ p'.trace handle s', alike x x' → c.meets x x') :
    Agree Q (p.run handle s).1 (p'.run handle s').1 ∧
      R (p.run handle s).2 (p'.run handle s').2 := by
  induction p generalizing p' s s' with
  | done r =>
    cases p' with
    | done r' => exact ⟨hp, hs⟩
    | ask q' next' => exact hp.elim
  | ask q next ih =>
    cases p' with
    | done r' => exact hp.elim
    | ask q' next' =>
      obtain ⟨halike, hs'⟩ := hanswers hs hp.1
      rw [trace_ask, trace_ask] at hmeets
      have hmet := hmeets _ List.mem_cons_self _ List.mem_cons_self halike
      rw [run_ask, run_ask]
      exact ih _ (hp.2 _ _ hmet) hs' fun x hx x' hx' =>
        hmeets x (List.mem_cons_of_mem _ hx) x' (List.mem_cons_of_mem _ hx')

end Program

end SecretMirror
