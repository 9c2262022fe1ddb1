import SecretMirror.Resync.Loop
import SecretMirror.Proofs.ExactTime
import SecretMirror.Proofs.Interleaving

/-!
# No retry is lost

Event threads, the loop, single ticks and requests to stop share one schedule and one clock
(`Resync.medium`).  They come between one another at every request: a run reads the clock, and
stores its retry when others may have stored theirs or a tick may have taken it.

`FollowsUp` says of a program that a failed reconciliation is followed by a retry at the reading of
the clock plus its delay, and that a tick that takes a run starts it at once.  All threads do so at
all times (`followsUp_run`).  `Pending` says that a retry is wanted by some time; only the claim of
a tick that starts a run can end this (`pending_step`).  A tick that comes when the retry is due
starts a run (`claim_of_pending`), whether on account of this retry or of a regular run.
-/

namespace SecretMirror.Resync

open Interleaving
open Program hiding bind ask

variable {τ : Type} [Time τ]

/-! ## What is shared -/

/-- A schedule and the clock that is read around it. -/
structure Clocked (τ : Type) where
  clock : τ
  schedule : Schedule τ

/-- How a request is answered.  Steps of the schedule are taken at once, as under its lock; a
reconciliation may succeed or fail in any way. -/
def Clocked.Answers (timing : Timing τ) : (q : Request τ) → Clocked τ →
    Except (Fault τ) ((requests τ).Answer q) → Clocked τ → Prop
  | .schedule step, s, a, t =>
    a = .ok (step.perform timing s.schedule).1 ∧
      t = { s with schedule := (step.perform timing s.schedule).2 }
  | .now, s, a, t => a = .ok s.clock ∧ t = s
  | .pause _, s, _, t => t = s
  | .reconcile _, s, _, t => t = s

/-- What may be started: a run for a reason, a tick, a number of rounds of the loop, a retry that is
asked for, a request to stop, and one to go on. -/
inductive Starts (timing : Timing τ) : Task τ Unit → Prop where
  | run (trigger : Value) : Starts timing (run timing trigger)
  | tick : Starts timing (tick timing >>= fun _ => pure ())
  | rounds (n : Nat) : Starts timing (rounds timing n)
  | scheduleRetry (delay : τ) : Starts timing (scheduleRetry delay)
  | stop : Starts timing stop
  | resume : Starts timing (step .resume)

/-- A schedule with a clock that never goes back, and everything that goes on around it. -/
def medium (timing : Timing τ) : Medium (requests τ) (Fault τ) (Clocked τ) where
  answers := Clocked.Answers timing
  interferes s t := ∃ later, s.clock ≤ later ∧ t = { s with clock := later }
  starts _ p := Starts timing p

/-! ## Delays -/

/-- After this fault, a retry is wanted so much later: a temporary fault is given its own delay if
it has one, and without one it is given the same delay as a fault of any other kind. -/
inductive Delays (timing : Timing τ) : Fault τ → τ → Prop where
  | own (message : String) (delay : τ) (cause : Option (Fault τ)) :
      Delays timing (.temporary message (some delay) cause) delay
  | unstated (message : String) (cause : Option (Fault τ)) :
      Delays timing (.temporary message none cause) timing.errorDelay
  | other {fault : Fault τ} (h : ∀ message delay cause, fault ≠ .temporary message delay cause) :
      Delays timing fault timing.errorDelay

omit [Time τ] in
theorem delays_retryDelay (timing : Timing τ) (fault : Fault τ) :
    Delays timing fault (retryDelay timing fault) := by
  cases fault with
  | temporary message delay cause =>
    cases delay with
    | some delay => exact .own message delay cause
    | none => exact .unstated message cause
  | _ => exact .other fun _ _ _ => by simp

/-! ## What follows a failure -/

def Asks {α : Type} (p : Task τ α) (q : Request τ) : Prop :=
  ∃ next, p = .ask q next

/-- What has to follow certain answers: the retry of a run that failed, and the run that a tick has
taken.  After any other answer nothing has to. -/
def Requires (timing : Timing τ) {α : Type} : (q : Request τ) →
    (Except (Fault τ) ((requests τ).Answer q) → Task τ α) → Prop
  | .reconcile _, next => ∀ fault, ∃ then', next (.error fault) = .ask .now then' ∧
    ∀ t, Asks (then' (.ok t)) (.schedule (.post (t + retryDelay timing fault)))
  | .schedule (.claim _), next => ∀ trigger,
    Asks (next (.ok (.run trigger))) (.reconcile (.text trigger))
  | _, _ => True

/-- Whatever a request of the program requires, the program does, at every request and after every
answer. -/
def FollowsUp (timing : Timing τ) {α : Type} : Task τ α → Prop
  | .done _ => True
  | .ask q next => Requires timing q next ∧ ∀ a, FollowsUp timing (next a)

variable {timing : Timing τ} {α β : Type}

omit [Time τ] in
theorem Asks.outcome {p : Task τ α} {q : Request τ} (h : Asks p q)
    (f : Except (Fault τ) α → Task τ β) : Asks (p.outcome f) q := by
  obtain ⟨next, rfl⟩ := h
  exact ⟨_, rfl⟩

theorem Requires.outcome {q : Request τ}
    {next : Except (Fault τ) ((requests τ).Answer q) → Task τ α} (h : Requires timing q next)
    (f : Except (Fault τ) α → Task τ β) : Requires timing q fun a => (next a).outcome f := by
  cases q with
  | reconcile trigger =>
    intro fault
    obtain ⟨then', hnow, hpost⟩ := h fault
    refine ⟨fun a => (then' a).outcome f, ?_, fun t => (hpost t).outcome f⟩
    show (next (.error fault)).outcome f = _
    rw [hnow]
    rfl
  | schedule step =>
    cases step with
    | claim now => exact fun trigger => (h trigger).outcome f
    | _ => trivial
  | _ => trivial

/-- What is required is done within a program, so what comes after it does not matter. -/
theorem FollowsUp.outcome {p : Task τ α} {f : Except (Fault τ) α → Task τ β}
    (hp : FollowsUp timing p) (hf : ∀ r, FollowsUp timing (f r)) :
    FollowsUp timing (p.outcome f) := by
  induction p with
  | done r => exact hf r
  | ask q next ih => exact ⟨hp.1.outcome f, fun a => ih a (hp.2 a)⟩

theorem FollowsUp.bind {p : Task τ α} {f : α → Task τ β} (hp : FollowsUp timing p)
    (hf : ∀ a, FollowsUp timing (f a)) : FollowsUp timing (p >>= f) := by
  apply hp.outcome
  intro r
  cases r with
  | ok a => exact hf a
  | error fault => trivial

theorem followsUp_step {s : Step τ} (hs : ∀ now, s ≠ .claim now) : FollowsUp timing (step s) := by
  refine ⟨?_, fun _ => trivial⟩
  cases s with
  | claim now => exact absurd rfl (hs now)
  | _ => trivial

theorem followsUp_scheduleRetry (delay : τ) : FollowsUp timing (scheduleRetry delay) := by
  apply FollowsUp.bind
  · exact ⟨trivial, fun _ => trivial⟩
  · intro t
    apply FollowsUp.bind
    · exact followsUp_step nofun
    · exact fun _ => followsUp_step nofun

theorem followsUp_run (trigger : Value) : FollowsUp timing (run timing trigger) := by
  refine ⟨fun fault => ⟨_, rfl, fun t => ⟨_, rfl⟩⟩, fun a => ?_⟩
  cases a with
  | ok _ => trivial
  | error fault => exact followsUp_scheduleRetry (retryDelay timing fault)

theorem followsUp_tick : FollowsUp timing (tick timing) := by
  refine ⟨trivial, fun a => ?_⟩
  cases a with
  | error fault => trivial
  | ok t =>
    refine ⟨fun trigger => ⟨_, rfl⟩, fun a => ?_⟩
    cases a with
    | error fault => trivial
    | ok claim =>
      cases claim with
      | wait time => trivial
      | run trigger => exact (followsUp_run (.text trigger)).bind fun _ => trivial

theorem followsUp_round : FollowsUp timing (round timing) := by
  apply (followsUp_step nofun).bind
  intro stopped
  split
  · trivial
  · apply followsUp_tick.bind
    intro time
    dsimp only
    split
    · apply FollowsUp.bind
      · exact ⟨trivial, fun _ => trivial⟩
      · exact fun _ => (followsUp_step nofun).bind fun _ => trivial
    · trivial

theorem followsUp_rounds (n : Nat) : FollowsUp timing (rounds timing n) := by
  induction n with
  | zero => trivial
  | succ n ih =>
    apply followsUp_round.bind
    intro goesOn
    cases goesOn with
    | true => exact ih
    | false => trivial

theorem followsUp_starts {p : Task τ Unit} (h : Starts timing p) : FollowsUp timing p := by
  cases h with
  | run trigger => exact followsUp_run trigger
  | tick => exact followsUp_tick.bind fun _ => trivial
  | rounds n => exact followsUp_rounds n
  | scheduleRetry delay => exact followsUp_scheduleRetry delay
  | stop => exact (followsUp_step nofun).bind fun _ => followsUp_step nofun
  | resume => exact followsUp_step nofun

/-- Every thread follows up at all times. -/
theorem followsUp_threads {P Q : Pool (requests τ) (Fault τ) (Clocked τ)}
    {es : List (Event (requests τ) (Fault τ))} (hidle : P.threads = [])
    (hrun : Run (medium timing) P es Q) : ∀ p ∈ Q.threads, FollowsUp timing p := by
  have hstep : ∀ {P e Q}, (∀ p ∈ P.threads, FollowsUp timing p) →
      Interleaving.Step (medium timing) P e Q → ∀ p ∈ Q.threads, FollowsUp timing p := by
    intro P e Q hP hs
    cases hs with
    | interfere _ => exact hP
    | start hstarts =>
      intro p hp
      rcases List.mem_append.1 hp with hp | hp
      · exact hP p hp
      · rw [List.mem_singleton.1 hp]
        exact followsUp_starts hstarts
    | answer hi _ =>
      intro p hp
      rcases List.mem_or_eq_of_mem_set hp with hp | rfl
      · exact hP p hp
      · exact (hP _ (List.mem_of_getElem? hi)).2 _
  apply hrun.keeps hstep
  rw [hidle]
  exact fun p hp => absurd hp (List.not_mem_nil)

/-- A run that failed stores a retry at the reading of the clock plus its delay. -/
theorem due_of_follows {p : Task τ Unit} (hp : FollowsUp timing p)
    {xs : List (Exchange (requests τ) (Fault τ))} {trigger : Value} {fault : Fault τ} {t due : τ}
    {next : Except (Fault τ) Unit → Task τ Unit}
    (h : p.Follows (xs ++ [⟨.reconcile trigger, .error fault⟩, ⟨.now, .ok t⟩])
      (.ask (.schedule (.post due)) next)) : due = t + retryDelay timing fault := by
  -- The induction is on what was asked before the failure; that the program follows up is kept
  -- along the way.
  induction xs generalizing p with
  | nil =>
    cases h with
    | next h =>
      obtain ⟨then', hnow, hpost⟩ := hp.1 fault
      rw [hnow] at h
      cases h with
      | next h =>
        obtain ⟨next', hasks⟩ := hpost t
        rw [hasks] at h
        cases h
        rfl
  | cons x xs ih =>
    cases h with
    | next h => exact ih (hp.2 _) h

/-! ## A retry that is wanted -/

/-- A retry is wanted by some time, be it this one or a sooner one. -/
def Pending (due : τ) (s : Schedule τ) : Prop := ∃ r, s.retryAt = some r ∧ r ≤ due

/-- A tick takes a run in this step. -/
def Takes (e : Event (requests τ) (Fault τ)) : Prop :=
  ∃ thread now trigger, e = .answered thread ⟨.schedule (.claim now), .ok (.run trigger)⟩

variable [Time.IsExact τ]

theorem pending_post (due : τ) (s : Schedule τ) : Pending due (s.post due) := by
  unfold Schedule.post
  cases hr : s.retryAt with
  | none => exact ⟨due, rfl, Time.le_refl due⟩
  | some r =>
    by_cases hlt : due < r
    · refine ⟨due, ?_, Time.le_refl due⟩
      simp only [if_pos hlt]
    · refine ⟨r, ?_, Time.IsExact.not_lt.1 hlt⟩
      simp only [if_neg hlt, hr]

/-- A later retry does not take the place of a sooner one, and a sooner one may. -/
theorem Pending.post {due : τ} {s : Schedule τ} (h : Pending due s) (other : τ) :
    Pending due (s.post other) := by
  obtain ⟨r, hr, hle⟩ := h
  unfold Schedule.post
  rw [hr]
  by_cases hlt : other < r
  · refine ⟨other, ?_, Time.IsExact.le_trans (Time.le_of_lt hlt) hle⟩
    simp only [if_pos hlt]
  · refine ⟨r, ?_, hle⟩
    simp only [if_neg hlt, hr]

theorem next_le_of_retryAt {r : τ} {s : Schedule τ} (hr : s.retryAt = some r) :
    (s.next timing).1 ≤ r := by
  unfold Schedule.next
  rw [hr]
  by_cases hlt : r < s.lastRun + timing.interval
  · simp only [if_pos hlt]
    exact Time.le_refl r
  · simp only [if_neg hlt]
    exact Time.IsExact.not_lt.1 hlt

/-- A tick that finds a retry due takes a run. -/
theorem claim_of_pending {due now : τ} {s : Schedule τ} (h : Pending due s) (hdue : due ≤ now) :
    ∃ trigger, (s.claim timing now).1 = .run trigger := by
  obtain ⟨r, hr, hle⟩ := h
  have hready : ¬ now < (s.next timing).1 := Time.IsExact.not_lt.2
    (Time.IsExact.le_trans (next_le_of_retryAt hr) (Time.IsExact.le_trans hle hdue))
  refine ⟨(s.next timing).2, ?_⟩
  simp only [Schedule.claim, if_neg hready]

omit [Time.IsExact τ] in
theorem claim_cases (timing : Timing τ) (now : τ) (s : Schedule τ) :
    (s.claim timing now).2 = s ∨ ∃ trigger, (s.claim timing now).1 = .run trigger := by
  unfold Schedule.claim
  by_cases hwaits : now < (s.next timing).1
  · left
    simp only [if_pos hwaits]
  · right
    refine ⟨(s.next timing).2, ?_⟩
    simp only [if_neg hwaits]

/-- Nothing but a tick that takes a run settles a retry. -/
theorem pending_step {due : τ} {P Q : Pool (requests τ) (Fault τ) (Clocked τ)}
    {e : Event (requests τ) (Fault τ)} (h : Pending due P.shared.schedule)
    (hs : Interleaving.Step (medium timing) P e Q) : Takes e ∨ Pending due Q.shared.schedule := by
  cases hs with
  | interfere hinterferes =>
    obtain ⟨later, -, rfl⟩ := hinterferes
    exact .inr h
  | start _ => exact .inr h
  | @answer s t ps i q next a hi ha =>
    cases q with
    | now =>
      obtain ⟨-, rfl⟩ := ha
      exact .inr h
    | pause time =>
      obtain rfl := ha
      exact .inr h
    | reconcile trigger =>
      obtain rfl := ha
      exact .inr h
    | schedule step =>
      obtain ⟨rfl, rfl⟩ := ha
      -- A post replaces the pending retry only by a sooner one, and a claim that takes no run
      -- changes nothing.
      cases step with
      | post other => exact .inr (h.post other)
      | claim now =>
        rcases claim_cases timing now s.schedule with hsame | ⟨trigger, htakes⟩
        · right
          show Pending due (s.schedule.claim timing now).2
          rw [hsame]
          exact h
        · left
          exact ⟨i, now, trigger, congrArg (fun c => Event.answered i ⟨_, .ok c⟩) htakes⟩
      | _ => exact .inr h

theorem pending_run {due : τ} {P Q : Pool (requests τ) (Fault τ) (Clocked τ)}
    {es : List (Event (requests τ) (Fault τ))} (h : Pending due P.shared.schedule)
    (hrun : Run (medium timing) P es Q) (hnone : ∀ e ∈ es, ¬ Takes e) :
    Pending due Q.shared.schedule := by
  induction hrun with
  | stay P => exact h
  | @step P Q R e es hs _ ih =>
    have hpending : Pending due Q.shared.schedule := by
      rcases pending_step h hs with htakes | hpending
      · exact absurd htakes (hnone e (List.mem_cons_self ..))
      · exact hpending
    exact ih hpending fun e' he' => hnone e' (List.mem_cons_of_mem _ he')

/-! ## Failures -/

omit [Time.IsExact τ] in
/-- A thread whose run failed stores the retry that the failure asks for. -/
theorem due_of_failed {P Q R : Pool (requests τ) (Fault τ) (Clocked τ)}
    {es : List (Event (requests τ) (Fault τ))} (hidle : P.threads = [])
    (hrun : Run (medium timing) P es Q) {i : Nat} {trigger : Value} {fault : Fault τ} {t due : τ}
    {xs : List (Exchange (requests τ) (Fault τ))}
    (hfailed : exchanges i es = xs ++ [⟨.reconcile trigger, .error fault⟩, ⟨.now, .ok t⟩])
    (hstores : Interleaving.Step (medium timing) Q
      (.answered i ⟨.schedule (.post due), .ok ()⟩) R) : due = t + retryDelay timing fault := by
  cases hstores with
  | answer hi _ =>
    rcases hrun.follows_from hi with ⟨p, hp, -⟩ | ⟨-, s, p, hstarts, hfollows⟩
    · rw [hidle] at hp
      cases hp
    · rw [hfailed] at hfollows
      exact due_of_follows (followsUp_starts hstarts) hfollows

/-- When a run has failed and stored its retry, it has stored it for the delay of its fault after
the reading of the clock, and the retry stays wanted by then until a tick takes a run; the tick
starts that run at once.  A tick that comes when the retry is due takes a run.  So neither a later
failure with a longer delay, nor a success, nor a regular run that is folded into another makes up
for the failure without a run that starts after it. -/
theorem retry_not_lost {P Q R S : Pool (requests τ) (Fault τ) (Clocked τ)}
    {es fs : List (Event (requests τ) (Fault τ))} (hidle : P.threads = [])
    (hrun : Run (medium timing) P es Q) {i : Nat} {trigger : Value} {fault : Fault τ} {t due : τ}
    {xs : List (Exchange (requests τ) (Fault τ))}
    (hfailed : exchanges i es = xs ++ [⟨.reconcile trigger, .error fault⟩, ⟨.now, .ok t⟩])
    (hstores : Interleaving.Step (medium timing) Q
      (.answered i ⟨.schedule (.post due), .ok ()⟩) R)
    (hlater : Run (medium timing) R fs S) (hnone : ∀ e ∈ fs, ¬ Takes e) :
    ∃ d, Delays timing fault d ∧ due = t + d ∧ Pending (t + d) S.shared.schedule ∧
      ∀ (j : Nat) (now : τ) (a : Except (Fault τ) (Claim τ)) (T : Pool _ _ (Clocked τ)),
        Interleaving.Step (medium timing) S (.answered j ⟨.schedule (.claim now), a⟩) T →
        (t + d ≤ now → ∃ trigger, a = .ok (.run trigger)) ∧
        ∀ trigger, a = .ok (.run trigger) →
          ∃ p, T.threads[j]? = some p ∧ Asks p (.reconcile (.text trigger)) := by
  have hdue := due_of_failed hidle hrun hfailed hstores
  have hstored : Pending due R.shared.schedule := by
    cases hstores with
    | answer _ ha =>
      obtain ⟨-, rfl⟩ := ha
      exact pending_post due _
  rw [hdue] at hstored
  have hpending := pending_run hstored hlater hnone
  have hthreads := followsUp_threads hidle (hrun.append (.step hstores hlater))
  refine ⟨_, delays_retryDelay timing fault, hdue, hpending, fun j now a T hclaim => ?_⟩
  cases hclaim with
  | @answer s u ps j q next a hj ha =>
    obtain ⟨rfl, -⟩ := ha
    refine ⟨fun hnow => ?_, fun trigger htakes => ?_⟩
    · obtain ⟨trigger, htakes⟩ := claim_of_pending hpending hnow
      exact ⟨trigger, congrArg Except.ok htakes⟩
    · have hrequires := (hthreads _ (List.mem_of_getElem? hj)).1 trigger
      have hlt : j < ps.length := (List.getElem?_eq_some_iff.1 hj).1
      rw [← htakes] at hrequires
      exact ⟨_, List.getElem?_set_self hlt, hrequires⟩

namespace Example

/-- A run that a watch event has started fails at the beginning. -/
def failedRun (fault : Fault ℚ) : List (Event (requests ℚ) (Fault ℚ)) :=
  [.started (run ⟨300, 30⟩ (.text "event")), .answered 0 ⟨.reconcile (.text "event"), .error fault⟩,
    .answered 0 ⟨.now, .ok 0⟩]

/-- Some time later a tick reads the clock. -/
def lateTick (now : ℚ) : List (Event (requests ℚ) (Fault ℚ)) :=
  [.interfered, .started (tick ⟨300, 30⟩ >>= fun _ => pure ()), .answered 1 ⟨.now, .ok now⟩]

def quiet : Pool (requests ℚ) (Fault ℚ) (Clocked ℚ) := ⟨⟨0, { lastRun := 0 }⟩, []⟩

/-- What goes on when a run fails, stores its retry for `due`, and a tick comes just then. -/
theorem exists_failedRun (fault : Fault ℚ) {due : ℚ}
    (hdue : 0 + retryDelay ⟨300, 30⟩ fault = due) (hclock : 0 ≤ due) : ∃ Q R S T claim,
      Run (medium ⟨300, 30⟩) quiet (failedRun fault) Q ∧
      Interleaving.Step (medium ⟨300, 30⟩) Q (.answered 0 ⟨.schedule (.post due), .ok ()⟩) R ∧
      Run (medium ⟨300, 30⟩) R (lateTick due) S ∧
      Interleaving.Step (medium ⟨300, 30⟩) S (.answered 1 ⟨.schedule (.claim due), claim⟩) T := by
  subst hdue
  exact ⟨_, _, _, _, _,
    .step (.start (.run (.text "event"))) <| .step (.answer rfl rfl) <|
      .step (.answer rfl ⟨rfl, rfl⟩) <| .stay _,
    .answer rfl ⟨rfl, rfl⟩,
    .step (.interfere ⟨_, hclock, rfl⟩) <| .step (.start .tick) <|
      .step (.answer rfl ⟨rfl, rfl⟩) <| .stay _,
    .answer rfl ⟨rfl, rfl⟩⟩

theorem exchanges_failedRun (fault : Fault ℚ) : exchanges 0 (failedRun fault) =
    [] ++ [⟨.reconcile (.text "event"), .error fault⟩, ⟨.now, .ok 0⟩] := rfl

/-- The failed run stores its retry for `due`, by which it stays wanted, and a tick that comes then
takes a run and starts it. -/
def RetriedAt (fault : Fault ℚ) (due : ℚ) : Prop :=
  ∃ Q R S T trigger p, Run (medium ⟨300, 30⟩) quiet (failedRun fault) Q ∧
    Interleaving.Step (medium ⟨300, 30⟩) Q (.answered 0 ⟨.schedule (.post due), .ok ()⟩) R ∧
    Run (medium ⟨300, 30⟩) R (lateTick due) S ∧ Pending due S.shared.schedule ∧
    Interleaving.Step (medium ⟨300, 30⟩) S
      (.answered 1 ⟨.schedule (.claim due), .ok (.run trigger)⟩) T ∧
    T.threads[1]? = some p ∧ Asks p (.reconcile (.text trigger))

def conflict : Fault ℚ := .temporary "Conflict" (some 5) none

/-- A temporary fault that leaves it open when to try again. -/
def overload : Fault ℚ := .temporary "Overload" none none

def breakdown : Fault ℚ := .plain .runtime "down"

end Example

open Example in
/-- The run is repeated five seconds after a conflict that asks for that, and thirty seconds after a
failure that asks for nothing, be it temporary or not. -/
theorem retry_not_lost_after_failure :
    RetriedAt conflict 5 ∧ RetriedAt overload 30 ∧ RetriedAt breakdown 30 := by
  have hretried : ∀ (fault : Fault ℚ) (due : ℚ), 0 + retryDelay ⟨300, 30⟩ fault = due → 0 ≤ due →
      RetriedAt fault due := by
    intro fault due hdelay hclock
    obtain ⟨Q, R, S, T, claim, hrun, hstores, hlater, hclaim⟩ :=
      exists_failedRun fault hdelay hclock
    obtain ⟨d, -, hdue, hpending, hticks⟩ := retry_not_lost rfl hrun (exchanges_failedRun fault)
      hstores hlater (by simp [lateTick, Takes])
    rw [← hdue] at hpending hticks
    obtain ⟨htakes, hstarts⟩ := hticks 1 due claim T hclaim
    obtain ⟨trigger, rfl⟩ := htakes (Time.le_refl due)
    obtain ⟨p, hp, hasks⟩ := hstarts trigger rfl
    exact ⟨Q, R, S, T, trigger, p, hrun, hstores, hlater, hpending, hclaim, hp, hasks⟩
  exact ⟨hretried conflict 5 (by norm_num [retryDelay, conflict]) (by norm_num),
    hretried overload 30 (by norm_num [retryDelay, overload]) (by norm_num),
    hretried breakdown 30 (by norm_num [retryDelay, breakdown]) (by norm_num)⟩

end SecretMirror.Resync
