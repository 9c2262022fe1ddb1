import SecretMirror.Proofs.Interleaving
import Mathlib.Order.Defs.PartialOrder

/-!
# Contracts of programs with what they share

What a thread holds in its hands, such as a copy of a secret, is hidden in the rest of its program.
To speak about it, a `Contract` says which requests are permitted and which answers are to be
expected, given what is known; knowledge only grows, whoever acts.  `Program.Keeps` says that a
program asks what is permitted as long as its answers are the expected ones, and that its value, if
it has one, satisfies a postcondition.  It is defined by recursion on the program, so it composes
along `outcome`, `bind` and the other operations.

`Upholds` says that a medium gives the expected answers to permitted requests and starts only
programs that keep the contract.  Then at every point of every run each thread keeps it
(`Upholds.run`), and what a thread is about to ask is permitted by what is known at that point
(`Upholds.permitted`).
-/

namespace SecretMirror

/-- What may be asked and which answers are to be expected, given what is known.  What is known is a
value in an order, and it only grows. -/
structure Contract (σ : Signature) (ε K : Type) where
  permits : K → σ.Request → Prop
  expects : K → (q : σ.Request) → Except ε (σ.Answer q) → Prop

namespace Program

variable {σ υ : Signature} {ε K α β : Type} [Preorder K] {c : Contract σ ε K}

/-- The program keeps the contract from what is known on, and its value satisfies `P`.  Before each
request and before the end more may become known, since others act too. -/
def Keeps (c : Contract σ ε K) (P : K → α → Prop) : Program σ ε α → K → Prop
  | .done r, k => ∀ l, k ≤ l → ∀ a, r = .ok a → P l a
  | .ask q next, k => ∀ l, k ≤ l →
    c.permits l q ∧ ∀ a, c.expects l q a → (next a).Keeps c P l

/-- The program keeps the contract, whatever its value. -/
abbrev Behaves (c : Contract σ ε K) (p : Program σ ε α) (k : K) : Prop :=
  p.Keeps c (fun _ _ => True) k

theorem Keeps.later {P : K → α → Prop} {p : Program σ ε α} {k l : K} (h : p.Keeps c P k)
    (hkl : k ≤ l) : p.Keeps c P l := by
  cases p with
  | done r => exact fun l' hl => h l' (le_trans hkl hl)
  | ask q next => exact fun l' hl => h l' (le_trans hkl hl)

theorem Keeps.imp {P R : K → α → Prop} {p : Program σ ε α} {k : K} (h : p.Keeps c P k)
    (himp : ∀ l, k ≤ l → ∀ a, P l a → R l a) : p.Keeps c R k := by
  induction p generalizing k with
  | done r => exact fun l hl a ha => himp l hl a (h l hl a ha)
  | ask q next ih =>
    intro l hl
    obtain ⟨hq, hnext⟩ := h l hl
    exact ⟨hq, fun a ha => ih a (hnext a ha) fun l' hl' => himp l' (le_trans hl hl')⟩

/-! ## Along the operations on programs -/

theorem keeps_ok {P : K → α → Prop} {k : K} {a : α} (h : ∀ l, k ≤ l → P l a) :
    (done (.ok a) : Program σ ε α).Keeps c P k := by
  rintro l hl _ ⟨⟩
  exact h l hl

theorem keeps_pure {P : K → α → Prop} {k : K} {a : α} (h : ∀ l, k ≤ l → P l a) :
    (pure a : Program σ ε α).Keeps c P k := keeps_ok h

theorem keeps_error {P : K → α → Prop} {k : K} {e : ε} :
    (done (.error e) : Program σ ε α).Keeps c P k := nofun

theorem keeps_fail {P : K → α → Prop} {k : K} {e : ε} :
    (fail e : Program σ ε α).Keeps c P k := keeps_error

theorem keeps_ofExcept {P : K → α → Prop} {k : K} {r : Except ε α}
    (h : ∀ a, r = .ok a → ∀ l, k ≤ l → P l a) : (ofExcept r : Program σ ε α).Keeps c P k :=
  fun l hl a ha => h a ha l hl

theorem keeps_request {q : σ.Request} {P : K → σ.Answer q → Prop} {k : K}
    (hq : ∀ l, k ≤ l → c.permits l q)
    (ha : ∀ l, k ≤ l → ∀ a, c.expects l q (.ok a) → ∀ l', l ≤ l' → P l' a) :
    (request q : Program σ ε (σ.Answer q)).Keeps c P k := by
  intro l hl
  refine ⟨hq l hl, fun a hexp l' hl' b hb => ?_⟩
  subst hb
  exact ha l hl b hexp l' hl'

/-- What follows may count on the postcondition from the end of the first part on. -/
theorem keeps_outcome {P : K → α → Prop} {R : K → β → Prop} {p : Program σ ε α}
    {f : Except ε α → Program σ ε β} {k : K} (hp : p.Keeps c P k)
    (hok : ∀ l, k ≤ l → ∀ a, (∀ l', l ≤ l' → P l' a) → (f (.ok a)).Keeps c R l)
    (herror : ∀ l, k ≤ l → ∀ e, (f (.error e)).Keeps c R l) : (p.outcome f).Keeps c R k := by
  induction p generalizing k with
  | done r =>
    cases r with
    | ok a => exact hok k le_rfl a fun l hl => hp l hl a rfl
    | error e => exact herror k le_rfl e
  | ask q next ih =>
    intro l hl
    obtain ⟨hq, hnext⟩ := hp l hl
    exact ⟨hq, fun a ha => ih a (hnext a ha) (fun l' hl' => hok l' (le_trans hl hl'))
      fun l' hl' => herror l' (le_trans hl hl')⟩

theorem keeps_bind {P : K → α → Prop} {R : K → β → Prop} {p : Program σ ε α}
    {f : α → Program σ ε β} {k : K} (hp : p.Keeps c P k)
    (hf : ∀ l, k ≤ l → ∀ a, P l a → (f a).Keeps c R l) : (p >>= f).Keeps c R k := by
  rw [bind_eq_outcome]
  exact keeps_outcome hp (fun l hl a ha => hf l hl a (ha l le_rfl)) fun _ _ _ => keeps_error

theorem behaves_request {q : σ.Request} {k : K} (hq : ∀ l, k ≤ l → c.permits l q) :
    (request q : Program σ ε (σ.Answer q)).Behaves c k :=
  keeps_request hq fun _ _ _ _ _ _ => trivial

theorem behaves_bind {R : K → β → Prop} {p : Program σ ε α} {f : α → Program σ ε β} {k : K}
    (hp : p.Behaves c k) (hf : ∀ l, k ≤ l → ∀ a, (f a).Keeps c R l) : (p >>= f).Keeps c R k :=
  keeps_bind hp fun l hl a _ => hf l hl a

theorem keeps_recover {P : K → α → Prop} {p : Program σ ε α} {handler : ε → Program σ ε α} {k : K}
    (hp : p.Keeps c P k) (hhandler : ∀ l, k ≤ l → ∀ e, (handler e).Keeps c P l) :
    (p.recover handler).Keeps c P k :=
  keeps_outcome hp (fun _ _ _ ha => keeps_ok ha) hhandler

theorem keeps_always {P : K → α → Prop} {p : Program σ ε α} {cleanup : Program σ ε Unit} {k : K}
    (hp : p.Keeps c P k) (hcleanup : ∀ l, k ≤ l → cleanup.Behaves c l) :
    (p.always cleanup).Keeps c P k := by
  refine keeps_outcome hp (fun l hl a ha => ?_) fun l hl e => ?_
  · exact keeps_bind (hcleanup l hl) fun l' hl' _ _ => keeps_ok fun l'' hl'' =>
      ha l'' (le_trans hl' hl'')
  · exact keeps_bind (hcleanup l hl) fun _ _ _ _ => keeps_error

/-- A program that keeps a contract of its own keeps the contract below as well, if each request is
answered by a program that, where the request is permitted, keeps the contract below and gives an
expected answer. -/
theorem keeps_interpret {d : Contract υ ε K} {f : (q : υ.Request) → Program σ ε (υ.Answer q)}
    (hf : ∀ q l, d.permits l q → (f q).Keeps c (fun l a => d.expects l q (.ok a)) l)
    (herror : ∀ l q e, d.expects l q (.error e)) {P : K → α → Prop} {p : Program υ ε α} {k : K}
    (hp : p.Keeps d P k) : (p.interpret f).Keeps c P k := by
  induction p generalizing k with
  | done r => exact hp
  | ask q next ih =>
    refine keeps_outcome (hf q k (hp k le_rfl).1) (fun l hl a ha => ?_) fun l hl e => ?_
    · exact ih (.ok a) ((hp l hl).2 _ (ha l le_rfl))
    · exact ih (.error e) ((hp l hl).2 _ (herror l q e))

theorem behaves_interpret {f : (q : υ.Request) → Program σ ε (υ.Answer q)} {p : Program υ ε α}
    {k : K} (hf : ∀ q l, k ≤ l → (f q).Behaves c l) : (p.interpret f).Behaves c k := by
  induction p generalizing k with
  | done r => exact fun _ _ _ _ => trivial
  | ask q next ih =>
    exact keeps_outcome (hf q k le_rfl)
      (fun l hl a _ => ih (.ok a) fun q' l' hl' => hf q' l' (le_trans hl hl'))
      fun l hl e => ih (.error e) fun q' l' hl' => hf q' l' (le_trans hl hl')

end Program

namespace Interleaving

variable {σ : Signature} {ε S K : Type} [Preorder K]

/-- A medium whose invariant `I` lets it uphold a contract, where `view` is what is known in a
state: its answers are the expected ones, its interference loses nothing that is known, and the
programs that it starts keep the contract. -/
structure Upholds (m : Medium σ ε S) (c : Contract σ ε K) (view : S → K) (I : S → Prop) : Prop where
  answers : ∀ {q s a t}, I s → c.permits (view s) q → m.answers q s a t →
    I t ∧ view s ≤ view t ∧ c.expects (view t) q a
  interferes : ∀ {s t}, I s → m.interferes s t → I t ∧ view s ≤ view t
  starts : ∀ {s p}, I s → m.starts s p → p.Behaves c (view s)

/-- The invariant holds of the shared state and every thread keeps the contract. -/
def Sound (c : Contract σ ε K) (view : S → K) (I : S → Prop) (P : Pool σ ε S) : Prop :=
  I P.shared ∧ ∀ p ∈ P.threads, p.Behaves c (view P.shared)

namespace Upholds

variable {m : Medium σ ε S} {c : Contract σ ε K} {view : S → K} {I : S → Prop}

/-- What a thread is about to ask is permitted. -/
theorem permitted {P : Pool σ ε S} (hP : Sound c view I P) {i : Nat} {q : σ.Request}
    {next : Except ε (σ.Answer q) → Program σ ε Unit} (hi : P.threads[i]? = some (.ask q next)) :
    c.permits (view P.shared) q :=
  (hP.2 _ (List.mem_of_getElem? hi) _ le_rfl).1

theorem step (h : Upholds m c view I) {P Q : Pool σ ε S} {e : Event σ ε}
    (hP : Sound c view I P) (hs : Step m P e Q) : Sound c view I Q := by
  cases hs with
  | interfere hst =>
    obtain ⟨hI, hle⟩ := h.interferes hP.1 hst
    exact ⟨hI, fun p hp => (hP.2 p hp).later hle⟩
  | start hst =>
    refine ⟨hP.1, fun p hp => ?_⟩
    rcases List.mem_append.1 hp with hp | hp
    · exact hP.2 p hp
    · rw [List.mem_singleton.1 hp]
      exact h.starts hP.1 hst
  | answer hi ha =>
    obtain ⟨hI, hle, hexp⟩ := h.answers hP.1 (permitted hP hi) ha
    refine ⟨hI, fun p hp => ?_⟩
    rcases List.mem_or_eq_of_mem_set hp with hp | rfl
    · exact (hP.2 p hp).later hle
    · exact (hP.2 _ (List.mem_of_getElem? hi) _ hle).2 _ hexp

theorem run (h : Upholds m c view I) {P Q : Pool σ ε S} {es : List (Event σ ε)}
    (hP : Sound c view I P) (hrun : Run m P es Q) : Sound c view I Q :=
  hrun.keeps (fun hP hs => h.step hP hs) hP

end Upholds

end Interleaving

end SecretMirror
