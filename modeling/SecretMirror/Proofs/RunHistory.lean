import SecretMirror.Proofs.Tracing

/-!
# What has happened in a run

What is found at the end of a run is often due to something that happened in it before: a thread has
come where it is by its own exchanges since it was started, and what the threads share was brought
there in some step.

`begun` lists the programs that were started, in order, so its positions are the threads of a pool
that had none at first (`Run.exists_begun`).  `Occurs` says of an event that it happens in a run,
after which events, and what the pool is at that moment.  `Run.keeps_since` proves what is known
about all that has happened so far, step after step.
-/

namespace SecretMirror.Interleaving

variable {σ : Signature} {ε S : Type} {m : Medium σ ε S}
  {P Q R X : Pool σ ε S} {es fs : List (Event σ ε)} {e : Event σ ε}

/-- The programs that were started, in order. -/
def begun : List (Event σ ε) → List (Program σ ε Unit)
  | [] => []
  | .started p :: es => p :: begun es
  | .interfered :: es => begun es
  | .answered _ _ :: es => begun es

/-- In a run from the pool `P` to the pool `Q` an event happens after the events `fs`, when the pool
is `X`. -/
structure Occurs (m : Medium σ ε S) (P : Pool σ ε S) (es : List (Event σ ε)) (Q : Pool σ ε S)
    (fs : List (Event σ ε)) (X : Pool σ ε S) (e : Event σ ε) : Prop where
  before : Run m P fs X
  happens : ∃ Y gs, Step m X e Y ∧ Run m Y gs Q ∧ es = fs ++ e :: gs

theorem Run.snoc (hrun : Run m P es Q) (hs : Step m Q e R) : Run m P (es ++ [e]) R :=
  hrun.append (.step hs (.stay R))

/-- What is kept by every step, given all that has happened before it, holds at the end. -/
theorem Run.keeps_since {I : List (Event σ ε) → Pool σ ε S → Prop}
    (hstep : ∀ {es Q e R}, Run m P es Q → I es Q → Step m Q e R → I (es ++ [e]) R)
    (hrun : Run m P es Q) (hP : I [] P) : I es Q := by
  have hsince : ∀ {X gs Q}, Run m X gs Q → ∀ fs, Run m P fs X → I fs X → I (fs ++ gs) Q := by
    intro X gs Q hgs
    induction hgs with
    | stay X =>
      intro fs _ hfs
      rw [List.append_nil]
      exact hfs
    | @step X Y Q e gs hs _ ih =>
      intro fs hrun hfs
      rw [List.append_cons fs e gs]
      exact ih (fs ++ [e]) (hrun.snoc hs) (hstep hrun hfs hs)
  exact hsince hrun [] (.stay P) hP

namespace Occurs

theorem last (hrun : Run m P es Q) (hs : Step m Q e R) : Occurs m P (es ++ [e]) R es Q e :=
  ⟨hrun, R, [], hs, .stay R, rfl⟩

theorem later (h : Occurs m P es Q fs X e) {e' : Event σ ε} (hs : Step m Q e' R) :
    Occurs m P (es ++ [e']) R fs X e := by
  obtain ⟨hbefore, Y, gs, hstep, hrun, rfl⟩ := h
  refine ⟨hbefore, Y, gs ++ [e'], hstep, hrun.snoc hs, ?_⟩
  rw [List.append_assoc, List.cons_append]

end Occurs

/-! ## Events -/

theorem Run.exists_occurs (hrun : Run m P es Q) (he : e ∈ es) : ∃ fs X, Occurs m P es Q fs X e := by
  refine hrun.keeps_since (I := fun es Q => ∀ e ∈ es, ∃ fs X, Occurs m P es Q fs X e)
    (fun hrun ih hs e he => ?_) (fun _ he => absurd he List.not_mem_nil) e he
  rcases List.mem_append.1 he with he | he
  · obtain ⟨fs, X, hoccurs⟩ := ih e he
    exact ⟨fs, X, hoccurs.later hs⟩
  · rw [List.mem_singleton.1 he]
    exact ⟨_, _, .last hrun hs⟩

theorem mem_exchanges_iff {i : Nat} {x : Exchange σ ε} :
    x ∈ exchanges i es ↔ .answered i x ∈ es := by
  induction es with
  | nil => simp [exchanges]
  | cons e es ih =>
    cases e with
    | interfered => simp [exchanges, ih]
    | started p => simp [exchanges, ih]
    | answered j y =>
      by_cases h : j = i
      · subst h
        simp [exchanges, ih]
      · have hne : i ≠ j := fun h' => h h'.symm
        simp [exchanges, h, hne, ih]

theorem exchanges_append (i : Nat) (es fs : List (Event σ ε)) :
    exchanges i (es ++ fs) = exchanges i es ++ exchanges i fs := by
  induction es with
  | nil => rfl
  | cons e es ih =>
    rw [List.cons_append, exchanges_cons, ih, ← List.append_assoc, ← exchanges_cons]

theorem exchanges_answered (i : Nat) (x : Exchange σ ε) :
    exchanges i [.answered i x] = [x] := by
  simp [exchanges]

theorem exchanges_single (i : Nat) (e : Event σ ε) :
    exchanges i [e] = [] ∨ ∃ x, e = .answered i x := by
  cases e with
  | interfered => exact .inl rfl
  | started p => exact .inl rfl
  | answered j x =>
    by_cases h : j = i
    · exact .inr ⟨x, by rw [h]⟩
    · exact .inl (by simp [exchanges, h])

/-- A run can be cut where a thread has one of its exchanges. -/
theorem Run.exists_step_of_exchanges (hrun : Run m P es Q) {i : Nat} {x : Exchange σ ε}
    {xs ys : List (Exchange σ ε)} (h : exchanges i es = xs ++ x :: ys) :
    ∃ fs X Y gs, Run m P fs X ∧ Step m X (.answered i x) Y ∧ Run m Y gs Q ∧
      es = fs ++ .answered i x :: gs ∧ exchanges i fs = xs ∧ exchanges i gs = ys := by
  induction hrun generalizing xs with
  | stay P => cases xs <;> cases h
  | @step P R Q e es hs hrest ih =>
    -- If the exchange does not happen in the first step, the rest of the run is cut.
    have hlater : ∀ {xs'}, exchanges i es = xs' ++ x :: ys → exchanges i [e] ++ xs' = xs →
        ∃ fs X Y gs, Run m P fs X ∧ Step m X (.answered i x) Y ∧ Run m Y gs Q ∧
          e :: es = fs ++ .answered i x :: gs ∧ exchanges i fs = xs ∧ exchanges i gs = ys := by
      intro xs' hes hxs
      obtain ⟨fs, X, Y, gs, hfs, hx, hgs, rfl, rfl, hys⟩ := ih hes
      refine ⟨e :: fs, X, Y, gs, .step hs hfs, hx, hgs, rfl, ?_, hys⟩
      rw [exchanges_cons]
      exact hxs
    rw [exchanges_cons] at h
    rcases exchanges_single i e with hnone | ⟨y, rfl⟩
    · rw [hnone, List.nil_append] at h
      exact hlater h (by rw [hnone]; rfl)
    · rw [exchanges_answered] at h
      cases xs with
      | nil =>
        obtain ⟨rfl, hys⟩ := List.cons.inj h
        exact ⟨[], P, R, es, .stay P, hs, hrest, rfl, rfl, hys⟩
      | cons z xs =>
        obtain ⟨rfl, hes⟩ := List.cons.inj h
        exact hlater hes (by rw [exchanges_answered]; rfl)

theorem Step.exists_asking {i : Nat} {x : Exchange σ ε} (hs : Step m P (.answered i x) Q) :
    ∃ next, P.threads[i]? = some (.ask x.request next) ∧
      m.answers x.request P.shared x.answer Q.shared ∧
      Q.threads[i]? = some (next x.answer) := by
  cases hs with
  | @answer s t ps _ q next a hi ha =>
    have hlt : i < ps.length := (List.getElem?_eq_some_iff.1 hi).1
    exact ⟨next, hi, ha, by simp [hlt]⟩

/-! ## Threads -/

theorem Run.follows_begun (hrun : Run m P es Q) {i : Nat} {p : Program σ ε Unit}
    (hp : (P.threads ++ begun es)[i]? = some p) :
    ∃ q, Q.threads[i]? = some q ∧ p.Follows (exchanges i es) q := by
  -- The positions of the threads are those in `P.threads ++ begun es`, and a step either appends
  -- one or changes what is at one of them.
  induction hrun generalizing p with
  | stay P =>
    rw [begun, List.append_nil] at hp
    exact ⟨p, hp, .none p⟩
  | @step P Q R e es hs _ ih =>
    cases hs with
    | interfere _ => exact ih hp
    | start _ =>
      refine ih ?_
      rw [List.append_assoc]
      exact hp
    | @answer s t ps j r next a hj _ =>
      have hlt : j < ps.length := (List.getElem?_eq_some_iff.1 hj).1
      by_cases h : j = i
      · subst h
        rw [List.getElem?_append_left hlt, hj] at hp
        obtain rfl := Option.some.inj hp
        obtain ⟨q, hq, hfollows⟩ := ih (p := next a) (by
          rw [List.getElem?_append_left (by simpa using hlt)]
          simp [hlt])
        refine ⟨q, hq, ?_⟩
        simp only [exchanges, if_true]
        exact .next hfollows
      · obtain ⟨q, hq, hfollows⟩ := ih (p := p) (by
          rw [← hp, List.getElem?_append, List.getElem?_append, List.length_set,
            List.getElem?_set_ne h]
          rfl)
        refine ⟨q, hq, ?_⟩
        simp only [exchanges, if_neg h]
        exact hfollows

theorem Run.length_threads (hrun : Run m P es Q) :
    Q.threads.length = P.threads.length + (begun es).length := by
  induction hrun with
  | stay P => rfl
  | step hs _ ih =>
    rw [ih]
    cases hs with
    | interfere _ => rfl
    | start _ =>
      rw [List.length_append, List.length_singleton, begun, List.length_cons, Nat.add_assoc,
        Nat.add_comm 1]
    | answer _ _ =>
      rw [List.length_set]
      rfl

theorem Run.starts_of_mem_begun (hrun : Run m P es Q) {p : Program σ ε Unit} (hp : p ∈ begun es) :
    ∃ s, m.starts s p := by
  induction hrun with
  | stay P => cases hp
  | step hs _ ih =>
    cases hs with
    | interfere _ => exact ih hp
    | start hstarts =>
      rcases List.mem_cons.1 hp with rfl | hp
      · exact ⟨_, hstarts⟩
      · exact ih hp
    | answer _ _ => exact ih hp

/-- Where there were no threads, every thread was started and has gone along its own exchanges. -/
theorem Run.exists_begun {s : S} (hrun : Run m ⟨s, []⟩ es Q) {i : Nat} {q : Program σ ε Unit}
    (hq : Q.threads[i]? = some q) : ∃ p t, (begun es)[i]? = some p ∧ m.starts t p ∧
      p.Follows (exchanges i es) q := by
  have hlt : i < (begun es).length := by
    have hi : i < Q.threads.length := (List.getElem?_eq_some_iff.1 hq).1
    rw [hrun.length_threads] at hi
    simpa using hi
  have hp : (begun es)[i]? = some (begun es)[i] := List.getElem?_eq_getElem hlt
  obtain ⟨q', hq', hfollows⟩ := hrun.follows_begun (i := i) (p := (begun es)[i]) hp
  obtain rfl : q = q' := Option.some.inj (hq.symm.trans hq')
  obtain ⟨t, hstarts⟩ := hrun.starts_of_mem_begun (List.mem_of_getElem? hp)
  exact ⟨_, t, hp, hstarts, hfollows⟩

/-! ## Threads that run alone -/

/-- What a handler answers, a medium may give one after another if it allows these answers as far as
it sees the state. -/
theorem Medium.grants_view {α T : Type} {handle : (q : σ.Request) → T → Except ε (σ.Answer q) × T}
    {view : T → S}
    (hanswers : ∀ q t, m.answers q (view t) (handle q t).1 (view (handle q t).2))
    (p : Program σ ε α) (t : T) :
    m.Grants (view t) (p.trace handle t) (view (p.run handle t).2) := by
  induction p generalizing t with
  | done r => exact .none (view t)
  | ask q next ih =>
    rw [Program.trace_ask, Program.run_ask]
    exact .next (hanswers q t) (ih _ _)

theorem Medium.grants_trace {α : Type}
    {handle : (q : σ.Request) → S → Except ε (σ.Answer q) × S}
    (hanswers : ∀ q s, m.answers q s (handle q s).1 (handle q s).2) (p : Program σ ε α) (s : S) :
    m.Grants s (p.trace handle s) (p.run handle s).2 :=
  m.grants_view hanswers p s

/-- What a thread asks when a handler answers, it may ask in a pool whose medium allows these
answers. -/
theorem exists_step_of_mem_trace {handle : (q : σ.Request) → S → Except ε (σ.Answer q) × S}
    (hanswers : ∀ q s, m.answers q s (handle q s).1 (handle q s).2) {p : Program σ ε Unit}
    {ps : List (Program σ ε Unit)} {i : Nat} {s : S} (hi : ps[i]? = some p) {x : Exchange σ ε}
    (hx : x ∈ p.trace handle s) :
    ∃ es P Q, Run m ⟨s, ps⟩ es P ∧ Step m P (.answered i x) Q := by
  induction p generalizing s ps with
  | done r => cases hx
  | ask q next ih =>
    have hstep : Step m ⟨s, ps⟩ (.answered i ⟨q, (handle q s).1⟩)
        ⟨(handle q s).2, ps.set i (next (handle q s).1)⟩ := .answer hi (hanswers q s)
    rw [Program.trace_ask] at hx
    rcases List.mem_cons.1 hx with rfl | hx
    · exact ⟨[], _, _, .stay _, hstep⟩
    · have hlt : i < ps.length := (List.getElem?_eq_some_iff.1 hi).1
      have hi' : (ps.set i (next (handle q s).1))[i]? = some (next (handle q s).1) := by simp [hlt]
      obtain ⟨es, P, Q, hrun, hs⟩ := ih _ hi' hx
      exact ⟨_, P, Q, .step hstep hrun, hs⟩

end SecretMirror.Interleaving
