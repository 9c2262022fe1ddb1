import SecretMirror.Program

/-!
# Threads that take turns

Several programs over one signature run side by side and share a state.  A `Medium` says what the
state may answer to a request, what other parties may make of it meanwhile, and which programs may
be started; nothing else happens.  One `Step` is one of these three things, so between two requests
of a thread everything the medium allows may come, in any order and any number of times.

A `Run` is a finite sequence of steps with the record of what happened.  From that record
`exchanges` picks the requests and answers of one thread, and `Program.Follows` says that a program
has come to another one by a list of exchanges; `Run.follows_from` connects the two, so what a
thread goes through between two points of a run can be read off its own program.
-/

namespace SecretMirror

structure Exchange (σ : Signature) (ε : Type) where
  request : σ.Request
  answer : Except ε (σ.Answer request)

/-- A program has come to another one by requests and answers, in this order.  What is left is the
program that remains to be done. -/
inductive Program.Follows {σ : Signature} {ε α : Type} :
    Program σ ε α → List (Exchange σ ε) → Program σ ε α → Prop where
  | none (p : Program σ ε α) : Follows p [] p
  | next {q : σ.Request} {next : Except ε (σ.Answer q) → Program σ ε α}
      {a : Except ε (σ.Answer q)} {xs : List (Exchange σ ε)} {p : Program σ ε α} :
      Follows (next a) xs p → Follows (.ask q next) (⟨q, a⟩ :: xs) p

namespace Interleaving

variable {σ : Signature} {ε S : Type}

/-- What threads share: how it answers, how it changes by itself, and what it lets start.  All three
are relations, so the medium may be as undetermined as the surroundings of the threads are. -/
structure Medium (σ : Signature) (ε S : Type) where
  /-- A request may get this answer in the first state and leave the second one. -/
  answers : (q : σ.Request) → S → Except ε (σ.Answer q) → S → Prop
  /-- Other parties may turn the first state into the second one. -/
  interferes : S → S → Prop
  /-- A program may be started in a state. -/
  starts : S → Program σ ε Unit → Prop

/-- A shared state and the threads that use it, in the order of their start.  A thread that has
ended keeps its place. -/
structure Pool (σ : Signature) (ε S : Type) where
  shared : S
  threads : List (Program σ ε Unit) := []

/-- What can happen in one step. -/
inductive Event (σ : Signature) (ε : Type) where
  /-- Another party has changed the state. -/
  | interfered
  /-- A thread has been started. -/
  | started (p : Program σ ε Unit)
  /-- A thread has asked and been answered. -/
  | answered (thread : Nat) (x : Exchange σ ε)

/-- One step of a pool, with what happens in it: other parties act, a thread is started, or one
thread asks and is answered. -/
inductive Step (m : Medium σ ε S) : Pool σ ε S → Event σ ε → Pool σ ε S → Prop where
  | interfere {s t : S} {ps : List (Program σ ε Unit)} :
      m.interferes s t → Step m ⟨s, ps⟩ .interfered ⟨t, ps⟩
  | start {s : S} {ps : List (Program σ ε Unit)} {p : Program σ ε Unit} :
      m.starts s p → Step m ⟨s, ps⟩ (.started p) ⟨s, ps ++ [p]⟩
  | answer {s t : S} {ps : List (Program σ ε Unit)} {i : Nat} {q : σ.Request}
      {next : Except ε (σ.Answer q) → Program σ ε Unit} {a : Except ε (σ.Answer q)} :
      ps[i]? = some (.ask q next) → m.answers q s a t →
      Step m ⟨s, ps⟩ (.answered i ⟨q, a⟩) ⟨t, ps.set i (next a)⟩

/-- Any number of steps, with what happens in them. -/
inductive Run (m : Medium σ ε S) : Pool σ ε S → List (Event σ ε) → Pool σ ε S → Prop where
  | stay (P : Pool σ ε S) : Run m P [] P
  | step {P Q R : Pool σ ε S} {e : Event σ ε} {es : List (Event σ ε)} :
      Step m P e Q → Run m Q es R → Run m P (e :: es) R

/-- The medium may give these answers one after another, while nothing else happens. -/
inductive Medium.Grants (m : Medium σ ε S) : S → List (Exchange σ ε) → S → Prop where
  | none (s : S) : Grants m s [] s
  | next {s t u : S} {x : Exchange σ ε} {xs : List (Exchange σ ε)} :
      m.answers x.request s x.answer t → Grants m t xs u → Grants m s (x :: xs) u

/-- The exchanges of one thread among what happened, in order. -/
def exchanges (thread : Nat) : List (Event σ ε) → List (Exchange σ ε)
  | [] => []
  | .answered i x :: es => if i = thread then x :: exchanges thread es else exchanges thread es
  | .interfered :: es => exchanges thread es
  | .started _ :: es => exchanges thread es

/-! ## Runs -/

variable {m : Medium σ ε S}

/-- A property that every step keeps holds at the end of a run if it holds at its beginning. -/
theorem Run.keeps {I : Pool σ ε S → Prop} (hstep : ∀ {P e Q}, I P → Step m P e Q → I Q)
    {P Q : Pool σ ε S} {es : List (Event σ ε)} (hrun : Run m P es Q) (hP : I P) : I Q := by
  induction hrun with
  | stay P => exact hP
  | step hs _ ih => exact ih (hstep hP hs)

/-- A step leaves every thread where it is, but for the one that it answers. -/
theorem Step.follows {P Q : Pool σ ε S} {e : Event σ ε} (hs : Step m P e Q) {i : Nat}
    {p : Program σ ε Unit} (hp : P.threads[i]? = some p) :
    ∃ p', Q.threads[i]? = some p' ∧ p.Follows (exchanges i [e]) p' := by
  cases hs with
  | interfere _ => exact ⟨p, hp, .none p⟩
  | start _ =>
    have hlt : i < _ := (List.getElem?_eq_some_iff.1 hp).1
    exact ⟨p, by rw [List.getElem?_append_left hlt]; exact hp, .none p⟩
  | @answer s t ps j q next a hj _ =>
    by_cases h : j = i
    · subst h
      have hlt : j < ps.length := (List.getElem?_eq_some_iff.1 hj).1
      obtain rfl : .ask q next = p := Option.some.inj (hj.symm.trans hp)
      refine ⟨next a, by simp [hlt], ?_⟩
      simp only [exchanges, if_true]
      exact .next (.none _)
    · refine ⟨p, ?_, ?_⟩
      · simpa [List.getElem?_set_ne h] using hp
      · simp only [exchanges, if_neg h]
        exact .none p

theorem Run.append {P Q R : Pool σ ε S} {es fs : List (Event σ ε)} (h : Run m P es Q)
    (h' : Run m Q fs R) : Run m P (es ++ fs) R := by
  induction h with
  | stay P => exact h'
  | step hs _ ih => exact .step hs (ih h')

end Interleaving

namespace Program.Follows

theorem append {σ : Signature} {ε α : Type} {p q r : Program σ ε α}
    {xs ys : List (Exchange σ ε)} (h : p.Follows xs q) (h' : q.Follows ys r) :
    p.Follows (xs ++ ys) r := by
  induction h with
  | none p => exact h'
  | next _ ih => exact .next (ih h')

theorem within {σ : Signature} {ε α β : Type} {p q : Program σ ε α} {xs : List (Exchange σ ε)}
    (h : p.Follows xs q) (f : Except ε α → Program σ ε β) :
    (p.outcome f).Follows xs (q.outcome f) := by
  induction h with
  | none p => exact .none _
  | next _ ih => exact .next ih

end Program.Follows

namespace Interleaving

variable {σ : Signature} {ε S : Type} {m : Medium σ ε S}

theorem exchanges_cons (thread : Nat) (e : Event σ ε) (es : List (Event σ ε)) :
    exchanges thread (e :: es) = exchanges thread [e] ++ exchanges thread es := by
  cases e with
  | interfered => rfl
  | started p => rfl
  | answered i x => by_cases h : i = thread <;> simp [exchanges, h]

theorem Step.exchanges_of_none {P Q : Pool σ ε S} {e : Event σ ε} (hs : Step m P e Q) {i : Nat}
    (hp : P.threads[i]? = none) : exchanges i [e] = [] := by
  cases hs with
  | interfere _ => rfl
  | start _ => rfl
  | @answer s t ps j r next a hj _ =>
    have hne : j ≠ i := by
      rintro rfl
      rw [hj] at hp
      cases hp
    simp only [exchanges, if_neg hne]

theorem Step.starts_of_none {P Q : Pool σ ε S} {e : Event σ ε} (hs : Step m P e Q) {i : Nat}
    {q : Program σ ε Unit} (hp : P.threads[i]? = none) (hq : Q.threads[i]? = some q) :
    ∃ s, m.starts s q := by
  have hge : P.threads.length ≤ i := List.getElem?_eq_none_iff.1 hp
  cases hs with
  | interfere _ =>
    rw [hp] at hq
    cases hq
  | @start s ps p hstarts =>
    rw [List.getElem?_append_right hge, List.getElem?_singleton] at hq
    split at hq
    · cases hq
      exact ⟨s, hstarts⟩
    · cases hq
  | @answer s t ps j r next a hj _ =>
    have hnone : (ps.set j (next a))[i]? = none := by
      rw [List.getElem?_eq_none_iff, List.length_set]
      exact hge
    rw [hnone] at hq
    cases hq

/-- A thread was there at the beginning or was started, and its own exchanges have brought it where
it is.  So what it has asked can be read off its own program. -/
theorem Run.follows_from {P Q : Pool σ ε S} {es : List (Event σ ε)} (hrun : Run m P es Q) {i : Nat}
    {q : Program σ ε Unit} (hq : Q.threads[i]? = some q) :
    (∃ p, P.threads[i]? = some p ∧ p.Follows (exchanges i es) q) ∨
      P.threads[i]? = none ∧ ∃ s p, m.starts s p ∧ p.Follows (exchanges i es) q := by
  induction hrun with
  | stay P => exact .inl ⟨q, hq, .none q⟩
  | @step P Q R e es hs _ ih =>
    rw [exchanges_cons]
    -- Either the thread is there before the step, or the step or a later one starts it.
    cases hp : P.threads[i]? with
    | some p =>
      obtain ⟨p₁, hp₁, h₁⟩ := hs.follows hp
      rcases ih hq with ⟨p₁', hp₁', h₁'⟩ | ⟨hnone, -⟩
      · obtain rfl : p₁ = p₁' := Option.some.inj (hp₁.symm.trans hp₁')
        exact .inl ⟨p, rfl, h₁.append h₁'⟩
      · rw [hp₁] at hnone
        cases hnone
    | none =>
      rw [hs.exchanges_of_none hp, List.nil_append]
      right
      refine ⟨rfl, ?_⟩
      rcases ih hq with ⟨p₁, hp₁, h₁⟩ | ⟨-, hstarted⟩
      · obtain ⟨s, hstarts⟩ := hs.starts_of_none hp hp₁
        exact ⟨s, p₁, hstarts, h₁⟩
      · exact hstarted

/-- Answers are given in parts, the second from where the first leaves the state. -/
theorem Medium.grants_append_iff {s u : S} {xs ys : List (Exchange σ ε)} :
    m.Grants s (xs ++ ys) u ↔ ∃ t, m.Grants s xs t ∧ m.Grants t ys u := by
  constructor
  · intro h
    induction xs generalizing s with
    | nil => exact ⟨s, .none s, h⟩
    | cons x xs ih =>
      cases h with
      | next hx h =>
        obtain ⟨t, hxs, hys⟩ := ih h
        exact ⟨t, .next hx hxs, hys⟩
  · rintro ⟨t, hxs, hys⟩
    induction hxs with
    | none s => exact hys
    | next hx _ ih => exact .next hx (ih hys)

theorem Medium.grants_cons_iff {s u : S} {x : Exchange σ ε} {xs : List (Exchange σ ε)} :
    m.Grants s (x :: xs) u ↔ ∃ t, m.answers x.request s x.answer t ∧ m.Grants t xs u := by
  constructor
  · intro h
    cases h with
    | next hx hxs => exact ⟨_, hx, hxs⟩
  · rintro ⟨t, hx, hxs⟩
    exact .next hx hxs

/-- A thread can go wherever its program leads by answers that the medium may give, while nothing
else happens. -/
theorem Run.along {s t : S} {ps : List (Program σ ε Unit)} {i : Nat} {p q : Program σ ε Unit}
    {xs : List (Exchange σ ε)} (hi : ps[i]? = some p) (hp : p.Follows xs q)
    (hm : m.Grants s xs t) : Run m ⟨s, ps⟩ (xs.map (.answered i)) ⟨t, ps.set i q⟩ := by
  induction hp generalizing s ps with
  | none p =>
    cases hm
    obtain ⟨hlt, rfl⟩ := List.getElem?_eq_some_iff.1 hi
    rw [List.set_getElem_self hlt]
    exact .stay _
  | @next r next a xs p _ ih =>
    cases hm with
    | next ha hrest =>
      have hlt : i < ps.length := (List.getElem?_eq_some_iff.1 hi).1
      have hi' : (ps.set i (next a))[i]? = some (next a) := by simp [hlt]
      have hgo := ih hi' hrest
      rw [List.set_set] at hgo
      exact .step (.answer hi ha) hgo

end Interleaving

end SecretMirror
