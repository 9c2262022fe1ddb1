import SecretMirror.Resync.Lifecycle
import SecretMirror.Proofs.Retry
import Mathlib.Data.List.Basic

/-!
# Threads that run the loop

A `LoopThreads` is what starts and stops leave behind: the schedule with its clock, every thread
that was ever started, and the one that is held on to.  A thread is what is left of the round that
it is in (`again` begins the next one), so between any two of its requests there may come another
thread, a start, a part of a stop, or whoever posts retries meanwhile.  A stop lets go of its thread
at any time, for a reconciliation may last however long.

`Stands` says in which phase a thread is and how many times it still claims before it looks at the
flag again, and `Stands.answer` what an answer makes of this.  With the phases of their threads they
are a `Lifecycle`, and each step is an operation on that (`LoopThreads.Step.shows`).
`LoopThreads.Run.follows_rounds` says that a thread goes through what a sufficient number of rounds
goes through.
-/

namespace SecretMirror.Resync

open Program hiding bind ask

variable {τ α β : Type} {timing : Timing τ}

/-! ## The phases of a thread -/

/-- The phase in which a thread asks for something. -/
def Request.phase : Request τ → Phase
  | .schedule .isStopped => .looking
  | .pause _ => .pausing
  | .schedule .settle => .pausing
  | _ => .ticking

theorem Request.phase_ne_ended (q : Request τ) : q.phase ≠ .ended := by
  fun_cases Request.phase q <;> decide

/-- Where a thread stands in its loop, by what is left of its round. -/
def phaseOf : Task τ Bool → Phase
  | .done _ => .ended
  | .ask q _ => Request.phase q

/-! ## What a tick asks for -/

/-- A request of a tick.  A tick neither looks at the flag nor pauses. -/
def Request.IsOfTick : Request τ → Prop
  | .now => True
  | .reconcile _ => True
  | .schedule (.claim _) => True
  | .schedule (.post _) => True
  | .schedule .wake => True
  | _ => False

def Request.claims : Request τ → Nat
  | .schedule (.claim _) => 1
  | _ => 0

/-- Nothing but a reconciliation fails. -/
def IsPossible (q : Request τ) (a : Except (Fault τ) ((requests τ).Answer q)) : Prop :=
  ∀ fault, a = .error fault → ∃ trigger, q = .reconcile trigger

/-- A part of a tick: it asks for nothing else, claims `n` times and succeeds, whatever it is
answered. -/
def Ticks : Task τ α → Nat → Prop
  | .done r, n => n = 0 ∧ ∃ v, r = .ok v
  | .ask q next, n => Request.IsOfTick q ∧ ∃ m, n = m + Request.claims q ∧
      ∀ a, IsPossible q a → Ticks (next a) m

theorem isPossible_ok {q : Request τ} (v : (requests τ).Answer q) : IsPossible q (.ok v) := by
  rintro fault ⟨⟩

theorem IsPossible.exists_ok {q : Request τ} {a : Except (Fault τ) ((requests τ).Answer q)}
    (ha : IsPossible q a) (hq : ∀ trigger, q ≠ .reconcile trigger) : ∃ v, a = .ok v := by
  cases a with
  | ok v => exact ⟨v, rfl⟩
  | error fault =>
    obtain ⟨trigger, h⟩ := ha fault rfl
    exact absurd h (hq trigger)

theorem Ticks.bind {p : Task τ α} {f : α → Task τ β} {m n : Nat} (hp : Ticks p m)
    (hf : ∀ v, Ticks (f v) n) : Ticks (p >>= f) (m + n) := by
  induction p generalizing m with
  | done r =>
    obtain ⟨rfl, v, rfl⟩ := hp
    rw [Nat.zero_add]
    exact hf v
  | ask q next ih =>
    obtain ⟨hq, k, rfl, hnext⟩ := hp
    exact ⟨hq, k + n, Nat.add_right_comm _ _ _, fun a ha => ih a (hnext a ha)⟩

theorem ticks_request {q : Request τ} (hq : q.IsOfTick) (hok : ∀ trigger, q ≠ .reconcile trigger) :
    Ticks (Program.request (σ := requests τ) q) q.claims := by
  refine ⟨hq, 0, (Nat.zero_add _).symm, fun a ha => ?_⟩
  obtain ⟨v, rfl⟩ := ha.exists_ok hok
  exact ⟨rfl, v, rfl⟩

variable [Time τ]

theorem ticks_scheduleRetry (delay : τ) : Ticks (scheduleRetry delay) 0 :=
  (ticks_request (q := .now) trivial nofun).bind fun t =>
    (ticks_request (q := .schedule (.post (t + delay))) trivial nofun).bind fun _ =>
      ticks_request (q := .schedule .wake) trivial nofun

theorem ticks_run (timing : Timing τ) (trigger : Value) : Ticks (run timing trigger) 0 := by
  refine ⟨trivial, 0, rfl, fun a _ => ?_⟩
  cases a with
  | ok _ => exact ⟨rfl, (), rfl⟩
  | error fault => exact ticks_scheduleRetry (retryDelay timing fault)

/-- A tick claims once. -/
theorem ticks_tick (timing : Timing τ) : Ticks (tick timing) 1 :=
  (ticks_request (q := .now) trivial nofun).bind (n := 1) fun t =>
    (ticks_request (q := .schedule (.claim t)) trivial nofun).bind (n := 0) fun claim => by
      cases claim with
      | wait time => exact ⟨rfl, time, rfl⟩
      | run trigger => exact (ticks_run timing (.text trigger)).bind (n := 0) fun _ => ⟨rfl, 0, rfl⟩

/-! ## The flag -/

theorem stopped_post (due : τ) (s : Schedule τ) : (s.post due).stopped = s.stopped := by
  unfold Schedule.post
  split
  · rfl
  · split
    · rfl
    · rfl

theorem stopped_claim (timing : Timing τ) (now : τ) (s : Schedule τ) :
    (s.claim timing now).2.stopped = s.stopped := by
  unfold Schedule.claim
  dsimp only
  split
  · rfl
  · rfl

theorem stopped_of_isOfTick {q : Request τ} {s t : Clocked τ}
    {a : Except (Fault τ) ((requests τ).Answer q)}
    (hq : q.IsOfTick) (ha : Clocked.Answers timing q s a t) :
    t.schedule.stopped = s.schedule.stopped := by
  revert hq
  cases q with
  | now =>
    obtain ⟨-, rfl⟩ := ha
    exact fun _ => rfl
  | reconcile trigger =>
    obtain rfl := ha
    exact fun _ => rfl
  | pause time => exact fun hq => hq.elim
  | schedule step =>
    obtain ⟨-, rfl⟩ := ha
    cases step with
    | claim now => exact fun _ => stopped_claim timing now s.schedule
    | post due => exact fun _ => stopped_post due s.schedule
    | wake => exact fun _ => rfl
    | _ => exact fun hq => hq.elim

/-! ## Where a thread stands -/

/-- A round that is over is followed by the next one if the loop goes on. -/
def again (timing : Timing τ) : Task τ Bool → Task τ Bool
  | .done (.ok true) => round timing
  | p => p

/-- What comes after the tick of a round, which is the pause if there is time to wait. -/
def afterTick (time : τ) : Task τ Bool := do
  if 0 < time then
    Program.request (σ := requests τ) (.pause time)
    step .settle
  return true

/-- A thread stands in a phase of its loop and claims `n` times before it looks at the flag. -/
inductive Stands (timing : Timing τ) : Phase → Nat → Task τ Bool → Prop where
  | looking : Stands timing .looking 0 (round timing)
  | ticking {q : Request τ} {next : Except (Fault τ) ((requests τ).Answer q) → Task τ τ} {n : Nat} :
      Ticks (.ask q next) n → n ≤ 1 → Stands timing .ticking n (Program.ask q next >>= afterTick)
  | pausing (time : τ) : Stands timing .pausing 0
      (Program.request (σ := requests τ) (.pause time) >>= fun _ => step .settle >>= fun _ =>
        pure true)
  | settling : Stands timing .pausing 0 (step .settle >>= fun _ => pure true)
  | ended : Stands timing .ended 0 (pure false)

theorem exists_stands_afterTick (timing : Timing τ) (time : τ) :
    ∃ pauses, Stands timing (Phase.next false pauses .ticking) 0
      (again timing (afterTick time)) := by
  unfold afterTick
  split
  · exact ⟨true, .pausing time⟩
  · exact ⟨false, .looking⟩

/-- A tick goes on, or it is over and a thread pauses or looks at the flag again. -/
theorem exists_stands_ticks (timing : Timing τ) {p : Task τ τ} {n : Nat} (hp : Ticks p n)
    (hn : n ≤ 1) :
    ∃ phase, Stands timing phase n (again timing (p >>= afterTick)) ∧
      (phase = .ticking ∨ ∃ pauses, phase = Phase.next false pauses .ticking) := by
  cases p with
  | done r =>
    obtain ⟨rfl, time, rfl⟩ := hp
    obtain ⟨pauses, h⟩ := exists_stands_afterTick timing time
    exact ⟨_, h, .inr ⟨pauses, rfl⟩⟩
  | ask q next => exact ⟨.ticking, .ticking hp hn, .inl rfl⟩

namespace Stands

variable {phase : Phase} {n : Nat} {p : Task τ Bool}

theorem le_one (h : Stands timing phase n p) : n ≤ 1 := by
  cases h with
  | ticking _ hn => exact hn
  | _ => exact Nat.zero_le 1

theorem phaseOf_eq (h : Stands timing phase n p) : phaseOf p = phase := by
  cases h with
  | @ticking q next n hticks _ =>
    have hq : Request.IsOfTick q := hticks.1
    show Request.phase q = .ticking
    revert hq
    fun_cases Request.phase q <;> simp [Request.IsOfTick]
  | _ => rfl

/-- An answer leaves the flag alone.  The thread stays in its phase or comes into the next one, and
it claims as often as it was going to, unless it looks at the flag and finds it clear. -/
theorem answer {q : Request τ} {next : Except (Fault τ) ((requests τ).Answer q) → Task τ Bool}
    {s t : Clocked τ} {a : Except (Fault τ) ((requests τ).Answer q)}
    (h : Stands timing phase n (.ask q next)) (ha : Clocked.Answers timing q s a t)
    (hok : IsPossible q a) :
    t.schedule.stopped = s.schedule.stopped ∧
      ∃ phase' n', Stands timing phase' n' (again timing (next a)) ∧
        (phase' = phase ∨ ∃ pauses, phase' = phase.next s.schedule.stopped pauses) ∧
        (n = n' + q.claims ∨ phase = .looking ∧ s.schedule.stopped = false ∧ q.claims = 0) := by
  -- The program is given a name first, for the cases on `Stands` have to see that it is a request.
  generalize hp : (Program.ask (σ := requests τ) q next) = p at h
  cases h with
  | looking =>
    change _ = Program.ask (σ := requests τ) (.schedule .isStopped) _ at hp
    cases hp
    obtain ⟨rfl, rfl⟩ := ha
    refine ⟨rfl, ?_⟩
    cases hflag : s.schedule.stopped with
    | true =>
      refine ⟨.ended, 0, ?_, .inr ⟨true, ?_⟩, .inl rfl⟩
      · show Stands timing _ _ (again timing (if s.schedule.stopped then _ else _))
        rw [hflag]
        exact .ended
      · rfl
    | false =>
      refine ⟨.ticking, 1, ?_, .inr ⟨true, rfl⟩, .inr ⟨rfl, rfl, rfl⟩⟩
      · show Stands timing _ _ (again timing (if s.schedule.stopped then _ else _))
        rw [hflag]
        exact .ticking (ticks_tick timing) le_rfl
  | @ticking q' next' n hticks hn =>
    change _ = Program.ask (σ := requests τ) q' _ at hp
    cases hp
    obtain ⟨hq, m, rfl, hnext⟩ := hticks
    obtain ⟨phase, hstands, hphase⟩ := exists_stands_ticks timing (hnext a hok) (by omega)
    exact ⟨stopped_of_isOfTick hq ha, phase, m, hstands, hphase, .inl rfl⟩
  | pausing time =>
    change _ = Program.ask (σ := requests τ) (.pause time) _ at hp
    cases hp
    obtain rfl := ha
    obtain ⟨v, rfl⟩ := hok.exists_ok nofun
    exact ⟨rfl, .pausing, 0, .settling, .inl rfl, .inl rfl⟩
  | settling =>
    change _ = Program.ask (σ := requests τ) (.schedule .settle) _ at hp
    cases hp
    obtain ⟨rfl, rfl⟩ := ha
    exact ⟨rfl, .looking, 0, .looking, .inr ⟨true, rfl⟩, .inl rfl⟩
  | ended => cases hp

end Stands

/-! ## The threads and what they share -/

/-- The threads that were started to run the loop, over the schedule that they share.  Only the one
that is held on to is known to `start` and `stop`. -/
structure LoopThreads (τ : Type) where
  shared : Clocked τ
  /-- What is left of the round of each thread, in the order of their start. -/
  threads : List (Task τ Bool) := []
  /-- The thread that is held on to. -/
  held : Option Nat := none
  /-- Whether a stop is under way. -/
  isStopping : Bool := false

namespace LoopThreads

def new (clock : τ) : LoopThreads τ := { shared := ⟨clock, { lastRun := clock }⟩ }

def after (timing : Timing τ) (s : Resync.Step τ) (c : LoopThreads τ) : LoopThreads τ :=
  { c with shared := { c.shared with schedule := (s.perform timing c.shared.schedule).2 } }

/-- Where all threads stand, which one is held on to, and the flag. -/
def lifecycle (c : LoopThreads τ) : Lifecycle where
  threads := c.threads.map phaseOf
  current := c.held
  stopped := c.shared.schedule.stopped

/-- The threads that have not ended.  Any of them may tick again if the flag is clear. -/
def going (c : LoopThreads τ) : List Nat :=
  (List.range c.threads.length).filter fun i => (c.lifecycle.phase i).isAlive

/-- What can happen in one step. -/
inductive Event (τ : Type) where
  /-- Time has passed, or others have posted something. -/
  | interfered
  /-- A start has started a thread, beside these that had not ended. -/
  | started (beside : List Nat)
  /-- A start has found its thread alive. -/
  | kept
  /-- A stop has set the flag. -/
  | stopped
  /-- A stop has let go of its thread, which may be alive. -/
  | letGo (alive : Bool)
  /-- A thread has asked and been answered. -/
  | answered (thread : Nat) (x : Exchange (requests τ) (Fault τ))

/-- One step, with what happens in it.  A stop sets the flag first and lets go of its thread some
time later, and the next call comes after that; to wake the loop in between is one of the things
others do.  What a start does is one step: no thread touches what is held, and what threads do
between the clearing of the flag and the start of another thread they may do just as well
afterwards. -/
inductive Step (timing : Timing τ) : LoopThreads τ → Event τ → LoopThreads τ → Prop where
  | interfere {c : LoopThreads τ} {later : τ} {schedule : Schedule τ} : c.shared.clock ≤ later →
      schedule.stopped = c.shared.schedule.stopped →
      Step timing c .interfered { c with shared := ⟨later, schedule⟩ }
  | start {c : LoopThreads τ} : c.isStopping = false → c.lifecycle.isRunning = false →
      Step timing c (.started c.going) { c.after timing .resume with
        threads := c.threads ++ [round timing]
        held := some c.threads.length }
  | keep {c : LoopThreads τ} : c.isStopping = false → c.lifecycle.isRunning = true →
      Step timing c .kept c
  | stop {c : LoopThreads τ} : c.isStopping = false →
      Step timing c .stopped { c.after timing .stop with isStopping := true }
  | letGo {c : LoopThreads τ} : c.isStopping = true →
      Step timing c (.letGo c.lifecycle.isRunning) { c with held := none, isStopping := false }
  | answer {c : LoopThreads τ} {t : Clocked τ} {i : Nat} {q : Request τ}
      {next : Except (Fault τ) ((requests τ).Answer q) → Task τ Bool}
      {a : Except (Fault τ) ((requests τ).Answer q)} :
      c.threads[i]? = some (.ask q next) → Clocked.Answers timing q c.shared a t →
      IsPossible q a → Step timing c (.answered i ⟨q, a⟩)
        { c with shared := t, threads := c.threads.set i (again timing (next a)) }

/-- Any number of steps, with what happens in them. -/
inductive Run (timing : Timing τ) : LoopThreads τ → List (Event τ) → LoopThreads τ → Prop where
  | stay (c : LoopThreads τ) : Run timing c [] c
  | step {c d f : LoopThreads τ} {e : Event τ} {es : List (Event τ)} :
      Step timing c e d → Run timing d es f → Run timing c (e :: es) f

def Event.exchangesOf (thread : Nat) : Event τ → List (Exchange (requests τ) (Fault τ))
  | .answered i x => if i = thread then [x] else []
  | _ => []

/-- The exchanges of one thread. -/
def exchanges (thread : Nat) (es : List (Event τ)) : List (Exchange (requests τ) (Fault τ)) :=
  es.flatMap (Event.exchangesOf thread)

/-- What an event is for the phases of the threads. -/
def Event.Shows (l l' : Lifecycle) : Event τ → Prop
  | .interfered => l' = l
  | .started _ => l' = l.start
  | .kept => l' = l.start
  | .stopped => l' = l.requestStop
  | .letGo _ => l' = l.release
  | .answered i _ => l' = l ∨ ∃ pauses, l' = l.advance i pauses

/-- Every thread stands somewhere in its loop. -/
def IsSound (timing : Timing τ) (c : LoopThreads τ) : Prop :=
  ∀ (i : Nat) (p : Task τ Bool), c.threads[i]? = some p → ∃ phase n, Stands timing phase n p

variable {c d f : LoopThreads τ} {e : Event τ} {es fs : List (Event τ)} {i : Nat} {p : Task τ Bool}

theorem Run.append (h : Run timing c es d) (h' : Run timing d fs f) :
    Run timing c (es ++ fs) f := by
  induction h with
  | stay c => exact h'
  | step hs _ ih => exact .step hs (ih h')

theorem Run.keeps {I : LoopThreads τ → Prop} (hrun : Run timing c es d) (hc : I c)
    (hstep : ∀ {c e d}, e ∈ es → Step timing c e d → I c → I d) : I d := by
  induction hrun with
  | stay c => exact hc
  | step hs _ ih =>
    exact ih (hstep (List.mem_cons_self ..) hs hc) fun he => hstep (List.mem_cons_of_mem _ he)

theorem Run.split (hrun : Run timing c (es ++ fs) f) :
    ∃ d, Run timing c es d ∧ Run timing d fs f := by
  induction es generalizing c with
  | nil => exact ⟨c, .stay c, hrun⟩
  | cons e es ih =>
    cases hrun with
    | step hs hrest =>
      obtain ⟨d, hes, hfs⟩ := ih hrest
      exact ⟨d, .step hs hes, hfs⟩

/-- A step leaves a thread where it is, or answers what it asks. -/
theorem Step.thread (hs : Step timing c e d) (hi : c.threads[i]? = some p) :
    e.exchangesOf i = [] ∧ d.threads[i]? = some p ∨
      ∃ (q : Request τ) (next : _) (a : Except (Fault τ) ((requests τ).Answer q)),
        p = .ask q next ∧ e = .answered i ⟨q, a⟩ ∧ d.threads[i]? = some (again timing (next a)) ∧
          Clocked.Answers timing q c.shared a d.shared ∧ IsPossible q a := by
  have hlt : i < c.threads.length := (List.getElem?_eq_some_iff.1 hi).1
  cases hs with
  | start _ _ =>
    left
    refine ⟨rfl, ?_⟩
    show (c.threads ++ _)[i]? = _
    rw [List.getElem?_append_left hlt]
    exact hi
  | @answer t j q next a hj ha hok =>
    by_cases h : j = i
    · subst h
      right
      obtain rfl : .ask q next = p := Option.some.inj (hj.symm.trans hi)
      exact ⟨q, next, a, rfl, rfl, by simp [hlt], ha, hok⟩
    · left
      refine ⟨if_neg h, ?_⟩
      show (c.threads.set j _)[i]? = _
      rw [List.getElem?_set_ne h]
      exact hi
  | _ => exact .inl ⟨rfl, hi⟩

theorem Step.of_none (hs : Step timing c e d) (hi : c.threads[i]? = none) :
    e.exchangesOf i = [] ∧ (d.threads[i]? = none ∨
      (∃ beside, e = .started beside) ∧ d.threads[i]? = some (round timing)) := by
  have hge : c.threads.length ≤ i := List.getElem?_eq_none_iff.1 hi
  cases hs with
  | start _ _ =>
    refine ⟨rfl, ?_⟩
    show (c.threads ++ _)[i]? = _ ∨ _ ∧ (c.threads ++ _)[i]? = _
    rw [List.getElem?_append_right hge, List.getElem?_singleton]
    split
    · exact .inr ⟨⟨_, rfl⟩, rfl⟩
    · exact .inl rfl
  | @answer t j q next a hj _ _ =>
    have hne : j ≠ i := by
      rintro rfl
      rw [hj] at hi
      cases hi
    refine ⟨if_neg hne, .inl ?_⟩
    show (c.threads.set j _)[i]? = _
    rw [List.getElem?_set_ne hne]
    exact hi
  | _ => exact ⟨rfl, .inl hi⟩

theorem Step.isSound (hs : Step timing c e d) (hc : c.IsSound timing) : d.IsSound timing := by
  intro i p hp
  cases hi : c.threads[i]? with
  | none =>
    rcases (hs.of_none hi).2 with hnone | ⟨-, hround⟩
    · rw [hnone] at hp
      cases hp
    · obtain rfl := Option.some.inj (hround.symm.trans hp)
      exact ⟨.looking, 0, .looking⟩
  | some p₀ =>
    obtain ⟨phase, n, hstands⟩ := hc i _ hi
    rcases hs.thread hi with ⟨-, hsame⟩ | ⟨q, next, a, rfl, -, hnext, ha, hok⟩
    · obtain rfl := Option.some.inj (hsame.symm.trans hp)
      exact ⟨phase, n, hstands⟩
    · obtain rfl := Option.some.inj (hnext.symm.trans hp)
      obtain ⟨-, phase', n', hstands', -⟩ := hstands.answer ha hok
      exact ⟨phase', n', hstands'⟩

theorem isSound_new (timing : Timing τ) (clock : τ) : (new clock).IsSound timing := nofun

theorem Run.isSound (hrun : Run timing c es d) (hc : c.IsSound timing) : d.IsSound timing :=
  hrun.keeps hc fun _ hs => hs.isSound

/-- Every step is an operation on the phases of the threads, so that what is known of a `Lifecycle`
holds of the threads. -/
theorem Step.shows (hs : Step timing c e d) (hc : c.IsSound timing) :
    e.Shows c.lifecycle d.lifecycle := by
  cases hs with
  | interfere _ hflag =>
    show Lifecycle.mk _ _ _ = Lifecycle.mk _ _ _
    rw [hflag]
  | start _ hrunning =>
    show Lifecycle.mk ((c.threads ++ [round timing]).map phaseOf) (some c.threads.length) _ =
      Lifecycle.start _
    rw [Lifecycle.start, hrunning, List.map_append, ← List.length_map phaseOf]
    rfl
  | keep _ hrunning =>
    show _ = Lifecycle.start _
    rw [Lifecycle.start, hrunning]
    rfl
  | stop _ => rfl
  | letGo _ => rfl
  | @answer t i q next a hi ha hok =>
    obtain ⟨phase, n, hstands⟩ := hc i _ hi
    obtain ⟨hflag, phase', n', hstands', hphase, -⟩ := hstands.answer ha hok
    have hi' : (c.threads.map phaseOf)[i]? = some phase := by
      rw [List.getElem?_map, hi, Option.map_some, hstands.phaseOf_eq]
    have hthreads : (c.threads.set i (again timing (next a))).map phaseOf =
        (c.threads.map phaseOf).set i phase' := by rw [List.map_set, hstands'.phaseOf_eq]
    show Lifecycle.mk _ _ _ = Lifecycle.mk _ _ _ ∨ ∃ pauses, Lifecycle.mk _ _ _ = Lifecycle.mk _ _ _
    rw [hthreads, hflag]
    rcases hphase with rfl | ⟨pauses, rfl⟩
    · obtain ⟨hlt, hphase⟩ := List.getElem?_eq_some_iff.1 hi'
      rw [← hphase, List.set_getElem_self hlt]
      exact .inl rfl
    · right
      refine ⟨pauses, ?_⟩
      show _ = Lifecycle.mk ((c.threads.map phaseOf).modify i _) _ _
      rw [List.modify_eq_set_getElem?, hi']
      rfl

/-- What is left of a round, and `m` rounds after it. -/
def onward (timing : Timing τ) (m : Nat) (p : Task τ Bool) : Task τ Unit :=
  p >>= fun goesOn => if goesOn then rounds timing m else pure ()

theorem exists_onward_follows (timing : Timing τ) {q : Request τ}
    (next : Except (Fault τ) ((requests τ).Answer q) → Task τ Bool)
    (a : Except (Fault τ) ((requests τ).Answer q)) :
    ∃ k, ∀ m, (onward timing (k + m) (.ask q next)).Follows [⟨q, a⟩]
      (onward timing m (again timing (next a))) := by
  have hnext : ∀ m, (onward timing m (.ask q next)).Follows [⟨q, a⟩] (onward timing m (next a)) :=
    fun m => .next (.none _)
  by_cases hover : next a = .done (.ok true)
  · refine ⟨1, fun m => ?_⟩
    have hrounds : onward timing (1 + m) (next a) = onward timing m (round timing) := by
      rw [hover, Nat.add_comm]
      rfl
    rw [hover, again, ← hrounds]
    exact hnext _
  · refine ⟨0, fun m => ?_⟩
    have hsame : again timing (next a) = next a := by
      unfold again
      split
      · contradiction
      · rfl
    rw [hsame, Nat.zero_add]
    exact hnext m

theorem Run.onward_follows (hrun : Run timing c es d) (hi : c.threads[i]? = some p)
    {p' : Task τ Bool} (hi' : d.threads[i]? = some p') :
    ∃ k, ∀ m, (onward timing (k + m) p).Follows (exchanges i es) (onward timing m p') := by
  induction hrun generalizing p with
  | stay c =>
    obtain rfl := Option.some.inj (hi.symm.trans hi')
    refine ⟨0, fun m => ?_⟩
    rw [Nat.zero_add]
    exact .none _
  | @step c d f e es hs _ ih =>
    show ∃ k, ∀ m, (onward timing (k + m) p).Follows (e.exchangesOf i ++ exchanges i es) _
    rcases hs.thread hi with ⟨hnone, hsame⟩ | ⟨q, next, a, rfl, rfl, hnext, -, -⟩
    · rw [hnone]
      exact ih hsame hi'
    · obtain ⟨k, hk⟩ := exists_onward_follows timing next a
      obtain ⟨l, hl⟩ := ih hnext hi'
      refine ⟨k + l, fun m => ?_⟩
      rw [Nat.add_assoc, Event.exchangesOf, if_pos rfl]
      exact (hk (l + m)).append (hl m)

/-- A thread that was started goes through what some number of rounds goes through. -/
theorem Run.follows_rounds {clock : τ} (hrun : Run timing (new clock) es c)
    (hi : c.threads[i]? = some p) :
    ∃ n, ∀ m, (rounds timing (n + m)).Follows (exchanges i es) (onward timing m p) := by
  -- Before its start a thread takes no part in anything; from then on `onward_follows` goes along
  -- with it.
  have hstarted : ∀ {c es d}, Run timing c es d → c.threads[i]? = none → d.threads[i]? = some p →
      ∃ k, ∀ m, (rounds timing (k + m)).Follows (exchanges i es) (onward timing m p) := by
    intro c es d hrun hnone hd
    induction hrun with
    | stay c =>
      rw [hnone] at hd
      cases hd
    | @step c d f e es hs hrest ih =>
      obtain ⟨hquiet, hstill⟩ := hs.of_none hnone
      show ∃ k, ∀ m, (rounds timing (k + m)).Follows (e.exchangesOf i ++ exchanges i es) _
      rw [hquiet, List.nil_append]
      rcases hstill with hnone | ⟨-, hround⟩
      · exact ih hnone hd
      · obtain ⟨k, hk⟩ := hrest.onward_follows hround hd
        refine ⟨k + 1, fun m => ?_⟩
        rw [Nat.add_right_comm]
        exact hk m
  exact hstarted hrun rfl hi

end LoopThreads

end SecretMirror.Resync
