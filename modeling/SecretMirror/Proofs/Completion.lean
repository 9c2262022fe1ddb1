import SecretMirror.Proofs.Tracing

/-!
# Programs that go through to their end

`Program.Completes` says that exchanges lead a program to its end, whoever gave the answers.  What
holds of all completions of a program holds whatever its surroundings are: they may keep a state,
change by themselves, and fail at any request.

How a program completes is told by its outermost operation (`completes_outcome_iff` and its
relatives), and by what its requests stand for (`completes_interpret_iff`).  A program that has been
followed for a while can always be led on to an end (`Follows.exists_completes`), so what is known
of completions is known of programs under way too.  An error at the end can be traced to the request
that was answered with it, if all parts of the program fail only so (`FailsBy.bind`).
-/

namespace SecretMirror.Program

variable {σ : Signature} {ε α β S : Type}

/-- The exchanges lead the program to its end, with this result. -/
abbrev Completes (p : Program σ ε α) (xs : List (Exchange σ ε)) (r : Except ε α) : Prop :=
  p.Follows xs (.done r)

variable {xs zs : List (Exchange σ ε)}

theorem completes_done_iff {a r : Except ε α} :
    (done a : Program σ ε α).Completes xs r ↔ xs = [] ∧ r = a := by
  constructor
  · intro h
    cases h
    exact ⟨rfl, rfl⟩
  · rintro ⟨rfl, rfl⟩
    exact .none _

theorem completes_ask_iff {q : σ.Request} {next : Except ε (σ.Answer q) → Program σ ε α}
    {r : Except ε α} : (ask q next).Completes xs r ↔
      ∃ a ys, (next a).Completes ys r ∧ xs = ⟨q, a⟩ :: ys := by
  constructor
  · intro h
    cases h with
    | next h => exact ⟨_, _, h, rfl⟩
  · rintro ⟨a, ys, h, rfl⟩
    exact .next h

theorem completes_request_iff {q : σ.Request} {r : Except ε (σ.Answer q)} :
    (request q : Program σ ε (σ.Answer q)).Completes xs r ↔ xs = [⟨q, r⟩] := by
  unfold request
  rw [completes_ask_iff]
  constructor
  · rintro ⟨a, ys, h, rfl⟩
    obtain ⟨rfl, rfl⟩ := completes_done_iff.1 h
    rfl
  · rintro rfl
    exact ⟨r, [], completes_done_iff.2 ⟨rfl, rfl⟩, rfl⟩

/-- The first part goes through to its end, and what follows goes on from its result, be it a value
or an error. -/
theorem completes_outcome_iff {p : Program σ ε α} {f : Except ε α → Program σ ε β}
    {r : Except ε β} : (p.outcome f).Completes zs r ↔
      ∃ xs a ys, p.Completes xs a ∧ (f a).Completes ys r ∧ zs = xs ++ ys := by
  constructor
  · intro h
    induction p generalizing zs with
    | done a => exact ⟨[], a, zs, .none _, h, rfl⟩
    | ask q next ih =>
      rw [outcome_ask, completes_ask_iff] at h
      obtain ⟨a, ws, h, rfl⟩ := h
      obtain ⟨xs, b, ys, hp, hf, rfl⟩ := ih a h
      exact ⟨⟨q, a⟩ :: xs, b, ys, .next hp, hf, rfl⟩
  · rintro ⟨xs, a, ys, hp, hf, rfl⟩
    exact (hp.within f).append hf

/-- What follows is reached by a value only; an error is the end. -/
theorem completes_bind_iff {p : Program σ ε α} {f : α → Program σ ε β} {r : Except ε β} :
    (p >>= f).Completes zs r ↔
      (∃ e, p.Completes zs (.error e) ∧ r = .error e) ∨
        ∃ xs a ys, p.Completes xs (.ok a) ∧ (f a).Completes ys r ∧ zs = xs ++ ys := by
  rw [bind_eq_outcome, completes_outcome_iff]
  constructor
  · rintro ⟨xs, a, ys, hp, hf, rfl⟩
    cases a with
    | ok a => exact .inr ⟨xs, a, ys, hp, hf, rfl⟩
    | error e =>
      obtain ⟨rfl, rfl⟩ := completes_done_iff.1 hf
      rw [List.append_nil]
      exact .inl ⟨e, hp, rfl⟩
  · rintro (⟨e, hp, rfl⟩ | ⟨xs, a, ys, hp, hf, rfl⟩)
    · exact ⟨zs, .error e, [], hp, .none _, (List.append_nil zs).symm⟩
    · exact ⟨xs, .ok a, ys, hp, hf, rfl⟩

theorem completes_request_bind_iff {q : σ.Request} {f : σ.Answer q → Program σ ε β}
    {r : Except ε β} : (request q >>= f).Completes zs r ↔
      (∃ e, zs = [⟨q, .error e⟩] ∧ r = .error e) ∨
        ∃ a ys, zs = ⟨q, .ok a⟩ :: ys ∧ (f a).Completes ys r := by
  rw [completes_bind_iff]
  constructor
  · rintro (⟨e, hq, rfl⟩ | ⟨xs, a, ys, hq, hf, rfl⟩)
    · exact .inl ⟨e, completes_request_iff.1 hq, rfl⟩
    · obtain rfl := completes_request_iff.1 hq
      exact .inr ⟨a, ys, rfl, hf⟩
  · rintro (⟨e, rfl, rfl⟩ | ⟨a, ys, rfl, hf⟩)
    · exact .inl ⟨e, completes_request_iff.2 rfl, rfl⟩
    · exact .inr ⟨[⟨q, .ok a⟩], a, ys, completes_request_iff.2 rfl, hf, rfl⟩

theorem completes_bind_pure_iff {p : Program σ ε α} {b : β} {r : Except ε β} :
    (p >>= fun _ => pure b).Completes xs r ↔ ∃ a, p.Completes xs a ∧ r = a.map fun _ => b := by
  rw [completes_bind_iff]
  constructor
  · rintro (⟨e, hp, rfl⟩ | ⟨xs, a, ys, hp, hdone, rfl⟩)
    · exact ⟨.error e, hp, rfl⟩
    · obtain ⟨rfl, rfl⟩ := completes_done_iff.1 hdone
      rw [List.append_nil]
      exact ⟨.ok a, hp, rfl⟩
  · rintro ⟨a, hp, rfl⟩
    cases a with
    | error e => exact .inl ⟨e, hp, rfl⟩
    | ok a => exact .inr ⟨xs, a, [], hp, .none _, (List.append_nil xs).symm⟩

/-- Exchanges lead a program to one end only, and go no further. -/
theorem Follows.eq_of_append {p : Program σ ε α} {ys us vs : List (Exchange σ ε)}
    {r s : Except ε α} (hxs : p.Completes xs r) (hys : p.Completes ys s)
    (happend : xs ++ us = ys ++ vs) : xs = ys ∧ r = s := by
  induction p generalizing xs ys with
  | done a =>
    obtain ⟨rfl, rfl⟩ := completes_done_iff.1 hxs
    obtain ⟨rfl, rfl⟩ := completes_done_iff.1 hys
    exact ⟨rfl, rfl⟩
  | ask q next ih =>
    obtain ⟨a, xs, hx, rfl⟩ := completes_ask_iff.1 hxs
    obtain ⟨b, ys, hy, rfl⟩ := completes_ask_iff.1 hys
    obtain ⟨hanswer, hrest⟩ := List.cons.inj happend
    cases hanswer
    obtain ⟨rfl, rfl⟩ := ih a hx hy hrest
    exact ⟨rfl, rfl⟩

/-- Once exchanges have led the first part to its end, what follows is left to do. -/
theorem Follows.rest {p : Program σ ε α} {f : Except ε α → Program σ ε β}
    {ys : List (Exchange σ ε)} {a : Except ε α} {r : Except ε β} (hp : p.Completes xs a)
    (h : (p.outcome f).Completes (xs ++ ys) r) : (f a).Completes ys r := by
  obtain ⟨xs', a', ys', hp', hf, happend⟩ := completes_outcome_iff.1 h
  obtain ⟨rfl, rfl⟩ := hp.eq_of_append hp' happend
  rw [List.append_cancel_left happend]
  exact hf

theorem Follows.rest_bind {p : Program σ ε α} {f : α → Program σ ε β}
    {ys : List (Exchange σ ε)} {a : α} {r : Except ε β} (hp : p.Completes xs (.ok a))
    (h : (p >>= f).Completes (xs ++ ys) r) : (f a).Completes ys r :=
  Follows.rest hp h

/-- A run is one way to complete a program. -/
theorem completes_trace (handle : (q : σ.Request) → S → Except ε (σ.Answer q) × S)
    (p : Program σ ε α) (s : S) : p.Completes (p.trace handle s) (p.run handle s).1 := by
  induction p generalizing s with
  | done r => exact .none _
  | ask q next ih =>
    rw [trace_ask, run_ask]
    exact .next (ih _ _)

/-- Wherever a program has come, it can be led to its end, if only by errors. -/
theorem Follows.exists_completes (e : ε) {p q : Program σ ε α} (h : p.Follows xs q) :
    ∃ ys r, p.Completes (xs ++ ys) r := by
  induction h with
  | none p =>
    induction p with
    | done r => exact ⟨[], r, .none _⟩
    | ask q next ih =>
      obtain ⟨ys, r, h⟩ := ih (.error e)
      exact ⟨⟨q, .error e⟩ :: ys, r, .next h⟩
  | next _ ih =>
    obtain ⟨ys, r, h⟩ := ih
    exact ⟨ys, r, .next h⟩

/-- A program that asks only requests of some kind goes through no others. -/
theorem AsksOnly.of_follows {P : σ.Request → Prop} {p q : Program σ ε α} (hp : p.AsksOnly P)
    (h : p.Follows xs q) : ∀ x ∈ xs, P x.request := by
  induction h with
  | none p => exact fun _ hx => absurd hx List.not_mem_nil
  | @next q next a xs p _ ih =>
    obtain ⟨hq, hnext⟩ := hp () le_rfl
    intro x hx
    rcases List.mem_cons.1 hx with rfl | hx
    · exact hq
    · exact ih (hnext a trivial) x hx

theorem AsksOnly.of_asking {P : σ.Request → Prop} {p : Program σ ε α} {q : σ.Request}
    {next : Except ε (σ.Answer q) → Program σ ε α} (hp : p.AsksOnly P)
    (h : p.Follows xs (.ask q next)) : P q := by
  generalize hasks : Program.ask q next = p' at h
  induction h with
  | none p =>
    subst hasks
    exact (hp () le_rfl).1
  | next _ ih => exact ih ((hp () le_rfl).2 _ trivial) hasks

/-! ## Programs under way -/

/-- What is about to ask is still in the first part, or has come through it. -/
theorem Follows.asking_of_outcome {p : Program σ ε α} {f : Except ε α → Program σ ε β}
    {q : σ.Request} {next : Except ε (σ.Answer q) → Program σ ε β}
    (h : (p.outcome f).Follows zs (.ask q next)) : (∃ next', p.Follows zs (.ask q next')) ∨
      ∃ xs a ys, p.Completes xs a ∧ (f a).Follows ys (.ask q next) ∧ zs = xs ++ ys := by
  induction p generalizing zs with
  | done a => exact .inr ⟨[], a, zs, .none _, h, rfl⟩
  | ask r rest ih =>
    rw [outcome_ask] at h
    cases h with
    | none => exact .inl ⟨rest, .none _⟩
    | next h =>
      rcases ih _ h with ⟨next', hp⟩ | ⟨xs, a, ys, hp, hf, rfl⟩
      · exact .inl ⟨next', .next hp⟩
      · exact .inr ⟨_, a, ys, .next hp, hf, rfl⟩

theorem Follows.asking_of_bind {p : Program σ ε α} {f : α → Program σ ε β}
    {q : σ.Request} {next : Except ε (σ.Answer q) → Program σ ε β}
    (h : (p >>= f).Follows zs (.ask q next)) : (∃ next', p.Follows zs (.ask q next')) ∨
      ∃ xs a ys, p.Completes xs (.ok a) ∧ (f a).Follows ys (.ask q next) ∧ zs = xs ++ ys := by
  rw [bind_eq_outcome] at h
  rcases h.asking_of_outcome with hp | ⟨xs, a, ys, hp, hf, rfl⟩
  · exact .inl hp
  · cases a with
    | ok a => exact .inr ⟨xs, a, ys, hp, hf, rfl⟩
    | error e => cases hf

/-! ## Programs that fail as their requests do -/

section

variable {P : σ.Request → Prop}

/-- The program fails with nothing but an error by which a request of some kind was answered.  So
its errors can be told from the answers, without a look at the program. -/
def FailsBy (P : σ.Request → Prop) (p : Program σ ε α) : Prop :=
  ∀ xs e, p.Completes xs (.error e) → ∃ q, P q ∧ (⟨q, .error e⟩ : Exchange σ ε) ∈ xs

theorem failsBy_request {q : σ.Request} (hq : P q) :
    (request q : Program σ ε (σ.Answer q)).FailsBy P := by
  intro xs e h
  obtain rfl := completes_request_iff.1 h
  exact ⟨q, hq, List.mem_singleton_self _⟩

theorem FailsBy.bind {p : Program σ ε α} {f : α → Program σ ε β} (hp : p.FailsBy P)
    (hf : ∀ a, (f a).FailsBy P) : (p >>= f).FailsBy P := by
  intro zs e h
  rcases completes_bind_iff.1 h with ⟨e', hfails, ⟨⟩⟩ | ⟨xs, a, ys, -, hrest, rfl⟩
  · exact hp zs e hfails
  · obtain ⟨q, hq, hmem⟩ := hf a ys e hrest
    exact ⟨q, hq, List.mem_append_right xs hmem⟩

end

/-! ## Requests that stand for programs -/

section

variable {υ : Signature} {f : (q : υ.Request) → Program σ ε (υ.Answer q)}

/-- Requests have been answered by going through the programs that stand for them, one after
another. -/
inductive Carries (f : (q : υ.Request) → Program σ ε (υ.Answer q)) :
    List (Exchange υ ε) → List (Exchange σ ε) → Prop where
  | none : Carries f [] []
  | next {x : Exchange υ ε} {us : List (Exchange υ ε)} {xs ys : List (Exchange σ ε)}
    (hx : (f x.request).Completes xs x.answer) (h : Carries f us ys) :
    Carries f (x :: us) (xs ++ ys)

/-- A program whose requests stand for programs goes through these, in the order in which it
asks. -/
theorem completes_interpret_iff {p : Program υ ε α} {r : Except ε α} :
    (p.interpret f).Completes zs r ↔ ∃ us, p.Completes us r ∧ Carries f us zs := by
  constructor
  · intro h
    -- What is exchanged in all is cut where the first request has been carried out.
    induction p generalizing zs with
    | done a =>
      obtain ⟨rfl, rfl⟩ := completes_done_iff.1 h
      exact ⟨[], .none _, .none⟩
    | ask q next ih =>
      obtain ⟨xs, a, ys, hq, hnext, rfl⟩ := completes_outcome_iff.1 h
      obtain ⟨us, hus, hcarries⟩ := ih a hnext
      exact ⟨⟨q, a⟩ :: us, .next hus, .next hq hcarries⟩
  · rintro ⟨us, hus, hcarries⟩
    induction hcarries generalizing p with
    | none =>
      cases hus
      exact .none _
    | @next x us xs ys hx _ ih =>
      cases hus with
      | next hus => exact completes_outcome_iff.2 ⟨xs, _, ys, hx, ih hus, rfl⟩

end

end SecretMirror.Program
