import SecretMirror.Proofs.Tracing

/-!
# Programs under interference

`Program.run` lets a program run undisturbed.  Here others act as well: `Program.InterferedRun` says
that a program can go from one state to another, with some exchanges and a result, while others may
interfere before each request and at the end.  A run by itself is the case where nobody interferes
(`interferedRun_run`), and what a program goes through can be cut where the program is put together
(`InterferedRun.of_outcome`, `InterferedRun.of_bind`).

What is known of such runs is found in two ways.  A contract that the answers and all interference
uphold is kept from the beginning to the end (`InterferedRun.keeps`).  And a statement about the
exchanges so far and the state that each part of a program sustains is sustained by the whole
(`Sustains.outcome`, `Sustains.interpret`).
-/

namespace SecretMirror.Program

variable {σ υ : Signature} {ε S α β : Type}

/-- From the first state a program comes to the second one, by these exchanges and with this result,
while others act.  They may do so any number of times between two requests, and each of their steps
is one of `interferes`. -/
inductive InterferedRun (handle : (q : σ.Request) → S → Except ε (σ.Answer q) × S)
    (interferes : S → S → Prop) :
    Program σ ε α → S → List (Exchange σ ε) → Except ε α → S → Prop where
  | done (r : Except ε α) (s : S) : InterferedRun handle interferes (.done r) s [] r s
  | interfered {p : Program σ ε α} {s t u : S} {xs : List (Exchange σ ε)} {r : Except ε α} :
      interferes s t → InterferedRun handle interferes p t xs r u →
        InterferedRun handle interferes p s xs r u
  | asked {q : σ.Request} {next : Except ε (σ.Answer q) → Program σ ε α} {s t : S}
      {xs : List (Exchange σ ε)} {r : Except ε α} :
      InterferedRun handle interferes (next (handle q s).1) (handle q s).2 xs r t →
      InterferedRun handle interferes (.ask q next) s (⟨q, (handle q s).1⟩ :: xs) r t

variable {handle : (q : σ.Request) → S → Except ε (σ.Answer q) × S} {interferes : S → S → Prop}

/-- A program may also run undisturbed. -/
theorem interferedRun_run (p : Program σ ε α) (s : S) :
    p.InterferedRun handle interferes s (p.trace handle s)
      (p.run handle s).1 (p.run handle s).2 := by
  induction p generalizing s with
  | done r => exact .done r s
  | ask q next ih => exact .asked (ih _ _)

namespace InterferedRun

/-- A run is cut where the first part ends.  What others do at the cut belongs to the first part. -/
theorem of_outcome {p : Program σ ε α} {f : Except ε α → Program σ ε β} {s u : S}
    {xs : List (Exchange σ ε)} {r : Except ε β}
    (h : (p.outcome f).InterferedRun handle interferes s xs r u) :
    ∃ ys a t zs, p.InterferedRun handle interferes s ys a t ∧
      (f a).InterferedRun handle interferes t zs r u ∧
      xs = ys ++ zs := by
  -- The induction is on the run of the whole, and `p` is what is left of the first part by then.
  generalize hp : p.outcome f = p' at h
  induction h generalizing p with
  | done r s =>
    cases p with
    | done a =>
      have hrest : f a = .done r := hp
      refine ⟨[], a, s, [], .done a s, ?_, rfl⟩
      rw [hrest]
      exact .done r s
    | ask q next => cases hp
  | interfered hinterferes _ ih =>
    obtain ⟨ys, a, t, zs, hfirst, hrest, hxs⟩ := ih hp
    exact ⟨ys, a, t, zs, .interfered hinterferes hfirst, hrest, hxs⟩
  | @asked q next s u xs r hasked ih =>
    cases p with
    | done a =>
      have hrest : f a = .ask q next := hp
      refine ⟨[], a, s, _, .done a s, ?_, rfl⟩
      rw [hrest]
      exact .asked hasked
    | ask q' next' =>
      cases hp
      obtain ⟨ys, a, t, zs, hfirst, hrest, rfl⟩ := ih rfl
      exact ⟨_, a, t, zs, .asked hfirst, hrest, rfl⟩

theorem of_bind {p : Program σ ε α} {f : α → Program σ ε β} {s u : S} {xs : List (Exchange σ ε)}
    {r : Except ε β} (h : (p >>= f).InterferedRun handle interferes s xs r u) :
    ∃ ys a t zs, p.InterferedRun handle interferes s ys a t ∧
      (resume f a).InterferedRun handle interferes t zs r u ∧
      xs = ys ++ zs :=
  of_outcome h

section Requests

variable {R : S → S → Prop} (hrefl : ∀ s, R s s) (htrans : ∀ {s t u}, R s t → R t u → R s u)
  (hinterferes : ∀ {s t}, interferes s t → R s t) {s t : S} {xs : List (Exchange σ ε)}

include hrefl htrans hinterferes

/-- When nothing is left to ask, only others act. -/
theorem of_done {a r : Except ε α} (h : (Program.done a).InterferedRun handle interferes s xs r t) :
    r = a ∧ xs = [] ∧ R s t := by
  generalize hp : (Program.done a : Program σ ε α) = p at h
  induction h with
  | done r s =>
    cases hp
    exact ⟨rfl, rfl, hrefl s⟩
  | interfered hst _ ih =>
    obtain ⟨hr, hxs, hR⟩ := ih hp
    exact ⟨hr, hxs, htrans (hinterferes hst) hR⟩
  | asked _ _ => cases hp

/-- A request is answered at some point, before and after which others act. -/
theorem of_request {q : σ.Request} {r : Except ε (σ.Answer q)}
    (h : (request q : Program σ ε (σ.Answer q)).InterferedRun handle interferes s xs r t) :
    ∃ u, R s u ∧ r = (handle q u).1 ∧ R (handle q u).2 t ∧ xs = [⟨q, (handle q u).1⟩] := by
  generalize hp : (request q : Program σ ε (σ.Answer q)) = p at h
  induction h with
  | done r s => cases hp
  | interfered hst _ ih =>
    obtain ⟨u, hbefore, hr, hafter, hxs⟩ := ih hp
    exact ⟨u, htrans (hinterferes hst) hbefore, hr, hafter, hxs⟩
  | @asked q' next s t xs r hrest _ =>
    cases hp
    obtain ⟨rfl, rfl, hafter⟩ := of_done hrefl htrans hinterferes hrest
    exact ⟨s, hrefl s, rfl, hafter, rfl⟩

end Requests

/-- A contract that the answers uphold and nobody breaks is kept to the end, and everything that was
asked was permitted. -/
theorem keeps {K : Type} [Preorder K] {c : Contract σ ε K} {I : S → Prop} (view : S → K)
    (hanswers : ∀ {q s}, I s → c.permits (view s) q → I (handle q s).2 ∧
      view s ≤ view (handle q s).2 ∧ c.expects (view (handle q s).2) q (handle q s).1)
    (hinterferes : ∀ {s t}, I s → interferes s t → I t ∧ view s ≤ view t)
    {P : K → α → Prop} {p : Program σ ε α} {s t : S} {xs : List (Exchange σ ε)} {r : Except ε α}
    (h : p.InterferedRun handle interferes s xs r t) (hp : p.Keeps c P (view s)) (hs : I s) :
    I t ∧ view s ≤ view t ∧ (∀ a, r = .ok a → P (view t) a) ∧
      ∀ x ∈ xs, ∃ k, c.permits k x.request := by
  induction h with
  | done r s => exact ⟨hs, le_rfl, hp _ le_rfl, nofun⟩
  | @interfered p s t u xs r hst _ ih =>
    obtain ⟨ht, hle⟩ := hinterferes hs hst
    obtain ⟨hu, hle', hresult, hasked⟩ := ih (hp.later hle) ht
    exact ⟨hu, le_trans hle hle', hresult, hasked⟩
  | @asked q next s t xs r _ ih =>
    obtain ⟨hpermits, hnext⟩ := hp _ le_rfl
    obtain ⟨hs', hle, hexpected⟩ := hanswers hs hpermits
    obtain ⟨-, hnext'⟩ := hp _ hle
    obtain ⟨ht, hle', hresult, hasked⟩ := ih (hnext' _ hexpected) hs'
    refine ⟨ht, le_trans hle hle', hresult, fun x hx => ?_⟩
    rcases List.mem_cons.1 hx with rfl | hx
    · exact ⟨_, hpermits⟩
    · exact hasked x hx

/-- What each of the requests and everybody else does to the state, the run does. -/
theorem relates {P : σ.Request → Prop} {R : S → S → Prop} {p : Program σ ε α} {s t : S}
    {xs : List (Exchange σ ε)} {r : Except ε α} (h : p.InterferedRun handle interferes s xs r t)
    (hp : p.AsksOnly P) (hrefl : ∀ s, R s s) (htrans : ∀ {s t u}, R s t → R t u → R s u)
    (hstep : ∀ q s, P q → R s (handle q s).2) (hinterferes : ∀ {s t}, interferes s t → R s t) :
    R s t ∧ ∀ x ∈ xs, P x.request := by
  obtain ⟨ht, -, -, hasked⟩ := h.keeps (I := R s) (fun _ => ())
    (fun hs hq => ⟨htrans hs (hstep _ _ hq), le_rfl, trivial⟩)
    (fun hs hst => ⟨htrans hs (hinterferes hst), le_rfl⟩) hp (hrefl s)
  refine ⟨ht, fun x hx => ?_⟩
  obtain ⟨_, hP⟩ := hasked x hx
  exact hP

end InterferedRun

/-! ## What every part sustains -/

/-- A statement about the exchanges so far and the state holds after the program if it held before.
What was exchanged before is part of the statement, so it can say how the program has been led to
its place. -/
def Sustains (handle : (q : σ.Request) → S → Except ε (σ.Answer q) × S) (interferes : S → S → Prop)
    (J : List (Exchange σ ε) → S → Prop) (p : Program σ ε α) : Prop :=
  ∀ ⦃xs ys : List (Exchange σ ε)⦄ ⦃s t : S⦄ ⦃r : Except ε α⦄,
    J xs s → p.InterferedRun handle interferes s ys r t → J (xs ++ ys) t

namespace Sustains

variable {J : List (Exchange σ ε) → S → Prop}

theorem outcome {p : Program σ ε α} {f : Except ε α → Program σ ε β}
    (hp : p.Sustains handle interferes J) (hf : ∀ r, (f r).Sustains handle interferes J) :
    (p.outcome f).Sustains handle interferes J := by
  intro xs _ s t r hJ h
  obtain ⟨ys, a, u, zs, hfirst, hrest, rfl⟩ := h.of_outcome
  rw [← List.append_assoc]
  exact hf a (hp hJ hfirst) hrest

theorem done (hinterferes : ∀ ⦃xs s t⦄, J xs s → interferes s t → J xs t) (r : Except ε α) :
    (Program.done r : Program σ ε α).Sustains handle interferes J := by
  intro xs ys s t r' hJ h
  generalize hp : (Program.done r : Program σ ε α) = p at h
  induction h with
  | done r s =>
    rw [List.append_nil]
    exact hJ
  | interfered hst _ ih => exact ih (hinterferes hJ hst) hp
  | asked _ _ => cases hp

theorem bind (hinterferes : ∀ ⦃xs s t⦄, J xs s → interferes s t → J xs t) {p : Program σ ε α}
    {f : α → Program σ ε β} (hp : p.Sustains handle interferes J)
    (hf : ∀ a, (f a).Sustains handle interferes J) : (p >>= f).Sustains handle interferes J := by
  refine outcome hp fun r => ?_
  cases r with
  | ok a => exact hf a
  | error e => exact done hinterferes (.error e)

theorem recover (hinterferes : ∀ ⦃xs s t⦄, J xs s → interferes s t → J xs t) {p : Program σ ε α}
    {handler : ε → Program σ ε α} (hp : p.Sustains handle interferes J)
    (hhandler : ∀ e, (handler e).Sustains handle interferes J) :
    (p.recover handler).Sustains handle interferes J := by
  refine outcome hp fun r => ?_
  cases r with
  | ok a => exact done hinterferes (.ok a)
  | error e => exact hhandler e

theorem always (hinterferes : ∀ ⦃xs s t⦄, J xs s → interferes s t → J xs t) {p : Program σ ε α}
    {cleanup : Program σ ε Unit} (hp : p.Sustains handle interferes J)
    (hcleanup : cleanup.Sustains handle interferes J) :
    (p.always cleanup).Sustains handle interferes J :=
  outcome hp fun r => bind hinterferes hcleanup fun _ => done hinterferes r

theorem interpret (hinterferes : ∀ ⦃xs s t⦄, J xs s → interferes s t → J xs t)
    {f : (q : υ.Request) → Program σ ε (υ.Answer q)} (hf : ∀ q, (f q).Sustains handle interferes J)
    (p : Program υ ε α) : (p.interpret f).Sustains handle interferes J := by
  induction p with
  | done r => exact done hinterferes r
  | ask q next ih => exact outcome (hf q) ih

end Sustains

end SecretMirror.Program
