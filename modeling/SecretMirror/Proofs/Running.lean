import SecretMirror.Program

/-!
# Programs that succeed, and programs that end somehow

`Program.Gives` says that a program under a handler ends with a value and in a state.  It composes
along `bind` and the other operations, so what a long program gives is put together from what its
parts give, without running it as a whole.

`Program.Ends` says of a program that may fail that its result and the state it leaves satisfy some
condition.  Its rules follow the operations as well: what a part leaves behind, whether it succeeded
or failed, is what the rest has to start from.
-/

namespace SecretMirror.Program

variable {σ υ : Signature} {ε S α β : Type}
  {handle : (q : σ.Request) → S → Except ε (σ.Answer q) × S}

/-! ## The laws of sequences -/

theorem outcome_done_right (p : Program σ ε α) : p.outcome done = p := by
  induction p with
  | done r => rfl
  | ask q next ih =>
    rw [outcome_ask]
    congr 1
    funext a
    exact ih a

theorem resume_pure : resume (fun a : α => (pure a : Program σ ε α)) = done := by
  funext r
  cases r <;> rfl

instance : LawfulMonad (Program σ ε) :=
  LawfulMonad.mk' (Program σ ε)
    (fun p => by
      show p.outcome (resume pure) = p
      rw [resume_pure, outcome_done_right])
    (fun _ _ => rfl)
    (fun p f g => by
      rw [bind_eq_outcome, bind_eq_outcome, bind_eq_outcome, outcome_assoc]
      congr 1
      funext r
      cases r <;> rfl)

/-- What handles the outcome of a program and cleans up goes by the outcome alone. -/
theorem recover_always_bind (p : Program σ ε α) (handler : ε → Program σ ε α)
    (cleanup : Program σ ε Unit) (f : α → Program σ ε β) :
    (p.recover handler).always cleanup >>= f = p.outcome fun outcome =>
      ((Program.ofExcept outcome).recover handler).always cleanup >>= f := by
  simp only [recover, always, bind_eq_outcome, outcome_assoc]
  rfl

/-! ## Programs that succeed -/

/-- The program ends with a value, and leads from one state to another. -/
def Gives (handle : (q : σ.Request) → S → Except ε (σ.Answer q) × S) (p : Program σ ε α) (s : S)
    (a : α) (t : S) : Prop :=
  p.run handle s = (.ok a, t)

theorem gives_pure (a : α) (s : S) : (pure a : Program σ ε α).Gives handle s a s := rfl

theorem gives_ofExcept {r : Except ε α} {a : α} (h : r = .ok a) (s : S) :
    (ofExcept r : Program σ ε α).Gives handle s a s := by
  subst h
  rfl

theorem gives_request {q : σ.Request} {s t : S} {a : σ.Answer q} (h : handle q s = (.ok a, t)) :
    (request q : Program σ ε (σ.Answer q)).Gives handle s a t := by
  show run handle (.ask q .done) s = _
  rw [run_ask, h]
  rfl

theorem gives_bind {p : Program σ ε α} {f : α → Program σ ε β} {s t u : S} {a : α} {b : β}
    (hp : p.Gives handle s a t) (hf : (f a).Gives handle t b u) :
    (p >>= f).Gives handle s b u := by
  unfold Gives at hp ⊢
  rw [run_bind, hp]
  exact hf

theorem gives_recover {p : Program σ ε α} {handler : ε → Program σ ε α} {s t : S} {a : α}
    (hp : p.Gives handle s a t) : (p.recover handler).Gives handle s a t := by
  unfold Gives at hp ⊢
  rw [recover, run_outcome, hp]
  rfl

theorem gives_recover_of_error {p : Program σ ε α} {handler : ε → Program σ ε α} {s t u : S}
    {e : ε} {a : α} (hp : p.run handle s = (.error e, t)) (hh : (handler e).Gives handle t a u) :
    (p.recover handler).Gives handle s a u := by
  unfold Gives
  rw [recover, run_outcome, hp]
  exact hh

theorem gives_always {p : Program σ ε α} {cleanup : Program σ ε Unit} {s t u : S} {a : α}
    (hp : p.Gives handle s a t) (hc : cleanup.Gives handle t () u) :
    (p.always cleanup).Gives handle s a u := by
  unfold Gives at hp ⊢
  rw [always, run_outcome, hp]
  exact gives_bind hc rfl

/-! ## How a program has succeeded -/

/-- A sequence succeeds only if its parts do, and then the parts give what it needs. -/
theorem Gives.of_bind {p : Program σ ε α} {f : α → Program σ ε β} {s u : S} {b : β}
    (h : (p >>= f).Gives handle s b u) :
    ∃ a t, p.Gives handle s a t ∧ (f a).Gives handle t b u := by
  unfold Gives at h
  rw [run_bind] at h
  cases hp : p.run handle s with
  | mk result t =>
    rw [hp] at h
    cases result with
    | ok a => exact ⟨a, t, hp, h⟩
    | error e => cases h

/-- A program that can recover succeeds by itself or by the handler of errors. -/
theorem Gives.of_recover {p : Program σ ε α} {handler : ε → Program σ ε α} {s u : S} {a : α}
    (h : (p.recover handler).Gives handle s a u) : p.Gives handle s a u ∨
      ∃ e t, p.run handle s = (.error e, t) ∧ (handler e).Gives handle t a u := by
  unfold Gives at h
  rw [recover, run_outcome] at h
  cases hp : p.run handle s with
  | mk result t =>
    rw [hp] at h
    cases result with
    | ok a' =>
      left
      exact hp.trans h
    | error e => exact .inr ⟨e, t, rfl, h⟩

theorem Gives.of_always {p : Program σ ε α} {cleanup : Program σ ε Unit} {s u : S} {a : α}
    (h : (p.always cleanup).Gives handle s a u) :
    ∃ t, p.Gives handle s a t ∧ cleanup.Gives handle t () u := by
  unfold Gives at h
  rw [always, run_outcome] at h
  obtain ⟨b, t, hcleanup, hdone⟩ := Gives.of_bind h
  cases hp : p.run handle s with
  | mk result t' =>
    rw [hp] at hcleanup hdone
    cases hdone
    exact ⟨t', hp, hcleanup⟩

theorem not_gives_fail {e : ε} {s t : S} {a : α} : ¬ (fail e : Program σ ε α).Gives handle s a t :=
  nofun

/-! ## Answering by programs -/

theorem interpret_request (f : (q : υ.Request) → Program σ ε (υ.Answer q)) (q : υ.Request) :
    (request q).interpret f = f q :=
  outcome_done_right (f q)

theorem interpret_bind (f : (q : υ.Request) → Program σ ε (υ.Answer q)) (p : Program υ ε α)
    (g : α → Program υ ε β) :
    (p >>= g).interpret f = p.interpret f >>= fun a => (g a).interpret f := by
  rw [bind_eq_outcome, bind_eq_outcome, interpret_outcome]
  congr 1
  funext r
  cases r <;> rfl

theorem gives_interpret {p : Program υ ε α} {f : (q : υ.Request) → Program σ ε (υ.Answer q)}
    {s t : S} {a : α} (hp : p.Gives (fun q => (f q).run handle) s a t) :
    (p.interpret f).Gives handle s a t := by
  unfold Gives
  rw [run_interpret]
  exact hp

/-! ## However a program ends -/

/-- Run from a state, the program ends with a result and in a state that satisfy `Q`.  The result
may be an error, so this is no claim that the program succeeds. -/
def Ends (handle : (q : σ.Request) → S → Except ε (σ.Answer q) × S) (p : Program σ ε α) (s : S)
    (Q : Except ε α → S → Prop) : Prop :=
  Q (p.run handle s).1 (p.run handle s).2

theorem Ends.imp {p : Program σ ε α} {s : S} {P Q : Except ε α → S → Prop}
    (h : p.Ends handle s P) (himp : ∀ r t, P r t → Q r t) : p.Ends handle s Q :=
  himp _ _ h

theorem Gives.ends {p : Program σ ε α} {s t : S} {a : α} {Q : Except ε α → S → Prop}
    (h : p.Gives handle s a t) (hQ : Q (.ok a) t) : p.Ends handle s Q := by
  unfold Ends
  rw [h]
  exact hQ

theorem Ends.of_gives {p : Program σ ε α} {s t : S} {a : α} {Q : Except ε α → S → Prop}
    (h : p.Ends handle s Q) (hp : p.Gives handle s a t) : Q (.ok a) t := by
  unfold Ends at h
  rw [hp] at h
  exact h

theorem ends_done {r : Except ε α} {s : S} {Q : Except ε α → S → Prop} (h : Q r s) :
    (done r : Program σ ε α).Ends handle s Q := h

theorem ends_request {q : σ.Request} {s : S} {Q : Except ε (σ.Answer q) → S → Prop}
    (h : Q (handle q s).1 (handle q s).2) :
    (request q : Program σ ε (σ.Answer q)).Ends handle s Q := h

theorem ends_outcome {p : Program σ ε α} {f : Except ε α → Program σ ε β} {s : S}
    {Q : Except ε β → S → Prop} (hp : p.Ends handle s fun r t => (f r).Ends handle t Q) :
    (p.outcome f).Ends handle s Q := by
  unfold Ends
  rw [run_outcome]
  exact hp

theorem Gives.ends_bind {p : Program σ ε α} {f : α → Program σ ε β} {s t : S} {a : α}
    {Q : Except ε β → S → Prop} (hp : p.Gives handle s a t) (hf : (f a).Ends handle t Q) :
    (p >>= f).Ends handle s Q := by
  unfold Ends
  rw [run_bind, hp]
  exact hf

/-- The rest starts from wherever the first part leaves a value; an error is passed on. -/
theorem ends_bind {p : Program σ ε α} {f : α → Program σ ε β} {s : S} {M : Except ε α → S → Prop}
    {Q : Except ε β → S → Prop} (hp : p.Ends handle s M)
    (hok : ∀ a t, M (.ok a) t → (f a).Ends handle t Q)
    (herror : ∀ e t, M (.error e) t → Q (.error e) t) : (p >>= f).Ends handle s Q := by
  rw [bind_eq_outcome]
  refine ends_outcome (hp.imp fun r t h => ?_)
  cases r with
  | ok a => exact hok a t h
  | error e => exact herror e t h

theorem ends_recover {p : Program σ ε α} {handler : ε → Program σ ε α} {s : S}
    {M Q : Except ε α → S → Prop} (hp : p.Ends handle s M)
    (hok : ∀ a t, M (.ok a) t → Q (.ok a) t)
    (herror : ∀ e t, M (.error e) t → (handler e).Ends handle t Q) :
    (p.recover handler).Ends handle s Q := by
  refine ends_outcome (hp.imp fun r t h => ?_)
  cases r with
  | ok a => exact hok a t h
  | error e => exact herror e t h

theorem ends_always {p : Program σ ε α} {cleanup : Program σ ε Unit} {s : S}
    {M Q : Except ε α → S → Prop} (hp : p.Ends handle s M)
    (hcleanup : ∀ r t, M r t → cleanup.Ends handle t fun r' u => r' = .ok () ∧ Q r u) :
    (p.always cleanup).Ends handle s Q := by
  refine ends_outcome (hp.imp fun r t h => ?_)
  refine ends_bind (hcleanup r t h) (fun _ _ hQ => ends_done hQ.2) fun e _ hQ => ?_
  cases hQ.1

end SecretMirror.Program
