import Mathlib.Data.Rat.Floor
import SecretMirror.Proofs.Apart
import SecretMirror.Proofs.Due

/-!
# No storm of retries

A schedule goes through a history of retries that are asked for, runs, and ticks, as in
`SecretMirror.Proofs.Due`, but every retry is posted at least `m` ahead: those that are asked for,
those of failed runs, and those that others post while time passes (`Defers`).  `History` keeps the
times at which ticks have started runs.

A tick that starts a run settles whatever was pending, and from then on the pending retry, if there
is one, is at least `m` after that run (`IsSpaced`): of several retries the soonest counts, but none
of them was posted nearer.  So runs that are started by ticks are at least `min m interval` apart,
however many runs fail in between (`runs_apart`).
-/

namespace SecretMirror.Resync

open Program hiding bind ask

variable {τ S : Type}

/-! ## Histories with retries that are not too near -/

section

variable [Time τ] {timing : Timing τ} {around : Surroundings τ S} {s t : ScheduleState τ S}

/-- From one state to the next time passes and others post, at least `m` ahead: what is pending was
pending before, or comes at least `m` later. -/
structure Defers (around : Surroundings τ S) (m : τ) (s t : ScheduleState τ S) : Prop
    extends Elapses around s t where
  deferred : ∀ r ∈ t.schedule.retryAt, r ∈ s.schedule.retryAt ∨ around.now s.outside + m ≤ r

/-- While a reconciliation goes on, time passes and others post at least `m` ahead. -/
def Surroundings.LetsDefer (around : Surroundings τ S) (m : τ) : Prop :=
  ∀ trigger s, Defers around m s (around.reconcile trigger s).2

/-- A reconciliation that has failed is repeated after `m` at the earliest.  This is about the
delays that faults ask for, so it is a condition on the faults that occur. -/
def FailsLate (timing : Timing τ) (m : τ) (xs : List (Exchange (requests τ) (Fault τ))) : Prop :=
  ∀ trigger fault, ⟨.reconcile trigger, .error fault⟩ ∈ xs → m ≤ retryDelay timing fault

/-- The time at which a run is taken. -/
def takenAt? : Exchange (requests τ) (Fault τ) → Option τ
  | ⟨.schedule (.claim now), .ok (.run _)⟩ => some now
  | _ => none

/-- The states that a new schedule comes to by calls, while time passes and others post, with the
times at which ticks have started runs.  Every retry is posted at least `m` ahead. -/
inductive History (timing : Timing τ) (around : Surroundings τ S) (m : τ) :
    List τ → ScheduleState τ S → Prop where
  | new (outside : S) :
    History timing around m [] ⟨{ lastRun := around.now outside }, outside⟩
  | elapse {starts : List τ} {s t : ScheduleState τ S} :
    History timing around m starts s → Defers around m s t → History timing around m starts t
  | scheduleRetry {starts : List τ} {s : ScheduleState τ S} {delay : τ} :
    History timing around m starts s → m ≤ delay →
    History timing around m starts ((scheduleRetry delay).run (handle timing around) s).2
  | run {starts : List τ} {s : ScheduleState τ S} (trigger : Value) :
    History timing around m starts s →
    FailsLate timing m ((run timing trigger).trace (handle timing around) s) →
    History timing around m starts ((run timing trigger).run (handle timing around) s).2
  | tick {starts : List τ} {s : ScheduleState τ S} :
    History timing around m starts s →
    FailsLate timing m ((tick timing).trace (handle timing around) s) →
    History timing around m
      (starts ++ ((tick timing).trace (handle timing around) s).filterMap takenAt?)
      ((tick timing).run (handle timing around) s).2

theorem trace_run (timing : Timing τ) {trigger : Value} {result : Except (Fault τ) Unit}
    (h : around.reconcile trigger s = (result, t)) :
    ∃ xs, (run timing trigger).trace (handle timing around) s =
        ⟨.reconcile trigger, result⟩ :: xs ∧ xs.filterMap takenAt? = [] := by
  have hhandle : handle timing around (.reconcile trigger) s = (result, t) := h
  rw [run, recover, trace_outcome, Program.request, trace_ask, run_ask, hhandle]
  cases result with
  | ok done => exact ⟨[], rfl, rfl⟩
  | error fault => exact ⟨_, rfl, rfl⟩

/-- A tick reads the clock and makes its claim before anything else. -/
theorem trace_tick {claim : Claim τ} {schedule : Schedule τ}
    (h : s.schedule.claim timing (around.now s.outside) = (claim, schedule)) :
    (tick timing).trace (handle timing around) s =
      ⟨.now, .ok (around.now s.outside)⟩ ::
        ⟨.schedule (.claim (around.now s.outside)), .ok claim⟩ ::
          (claim.task timing).trace (handle timing around) { s with schedule := schedule } := by
  have hnow : (now (τ := τ)).Gives (handle timing around) s (around.now s.outside) s :=
    gives_request rfl
  have hanswer : handle timing around (.schedule (.claim (around.now s.outside))) s =
      (.ok claim, { s with schedule := schedule }) := by
    show ((Except.ok (s.schedule.claim timing _).1,
      { s with schedule := (s.schedule.claim timing _).2 }) : _ × ScheduleState τ S) = _
    rw [h]
  have hclaim : (step (.claim (around.now s.outside))).Gives (handle timing around) s claim
      { s with schedule := schedule } := gives_request hanswer
  have hasked : (step (.claim (around.now s.outside))).trace (handle timing around) s =
      [⟨.schedule (.claim (around.now s.outside)), .ok claim⟩] := by
    rw [step, Program.request, trace_ask, hanswer]
    rfl
  rw [tick_eq, trace_bind, hnow, resume_ok, trace_bind, hclaim, hasked, resume_ok]
  rfl

end

/-! ## The pending retry -/

section

variable {K : Type} [Field K] [LinearOrder K] {timing : Timing K} {around : Surroundings K S}
  {m : K} {s t u : ScheduleState K S} {starts : List K}

/-- The last run is not in the future, and the pending retry is at least `m` after it. -/
structure IsSpaced (around : Surroundings K S) (m : K) (s : ScheduleState K S) : Prop where
  lastRun : s.schedule.lastRun ≤ around.now s.outside
  retryAt : ∀ r ∈ s.schedule.retryAt, s.schedule.lastRun + m ≤ r

theorem mem_retryAt_posted {due r : K} (h : r ∈ (s.posted due).schedule.retryAt) :
    r ∈ s.schedule.retryAt ∨ r = due := by
  have hpost : (s.schedule.post due).retryAt = some r := h
  rw [retryAt_post] at hpost
  rcases List.mem_append.1 (List.min?_mem hpost) with hpending | hposted
  · exact .inl (Option.mem_toList.1 hpending)
  · exact .inr (List.mem_singleton.1 hposted)

theorem Defers.posted {due : K} (h : around.now s.outside + m ≤ due) :
    Defers around m s (s.posted due) := by
  refine ⟨.posted due s, fun r hr => ?_⟩
  rcases mem_retryAt_posted hr with hpending | rfl
  · exact .inl hpending
  · exact .inr h

/-- Nothing is pending when a tick has taken a run. -/
theorem isSpaced_taken (s : ScheduleState K S) :
    IsSpaced around m (s.taken (around.now s.outside)) :=
  ⟨le_rfl, nofun⟩

theorem takenAt?_tick_of_lt (hnow : around.now s.outside < s.schedule.dueAt timing) :
    ((tick timing).trace (handle timing around) s).filterMap takenAt? = [] := by
  rw [trace_tick (claim_of_lt hnow)]
  rfl

variable [IsStrictOrderedRing K]

theorem Defers.trans (h : Defers around m s t) (h' : Defers around m t u) :
    Defers around m s u := by
  refine ⟨h.toElapses.trans h'.toElapses, fun r hr => ?_⟩
  rcases h'.deferred r hr with hpending | hlate
  · exact h.deferred r hpending
  · have hclock : around.now s.outside ≤ around.now t.outside := h.clock
    exact .inr (by linarith)

theorem IsSpaced.of_defers (hs : IsSpaced around m s) (h : Defers around m s t) :
    IsSpaced around m t := by
  have hlast : t.schedule.lastRun = s.schedule.lastRun := h.lastRun
  have hbefore : s.schedule.lastRun ≤ around.now s.outside := hs.lastRun
  rw [← hlast] at hbefore
  refine ⟨hbefore.trans h.clock, fun r hr => ?_⟩
  rcases h.deferred r hr with hpending | hlate
  · rw [hlast]
    exact hs.retryAt r hpending
  · linarith

/-- A run lets time pass and posts its own retry far enough ahead. -/
theorem defers_run {trigger : Value} (hpasses : around.LetsDefer m)
    (hlate : FailsLate timing m ((run timing trigger).trace (handle timing around) s)) :
    Defers around m s ((run timing trigger).run (handle timing around) s).2 := by
  obtain ⟨result, t, h⟩ : ∃ result t, around.reconcile trigger s = (result, t) := ⟨_, _, rfl⟩
  have hreconciled : Defers around m s t := by
    have hpassed : Defers around m s (around.reconcile trigger s).2 := hpasses trigger s
    rwa [h] at hpassed
  have hrun : (run timing trigger).Gives (handle timing around) s ()
      (t.postedAll (ownPosts timing around result t)) := gives_run h
  rw [hrun]
  cases result with
  | ok done => exact hreconciled
  | error fault =>
    obtain ⟨xs, htrace, -⟩ := trace_run timing h
    have hdelay : m ≤ retryDelay timing fault := by
      refine hlate trigger fault ?_
      rw [htrace]
      exact List.mem_cons_self ..
    exact hreconciled.trans (.posted (by linarith))

theorem tick_of_le (hnow : s.schedule.dueAt timing ≤ around.now s.outside)
    (hpasses : around.LetsDefer m)
    (hlate : FailsLate timing m ((tick timing).trace (handle timing around) s)) :
    ((tick timing).trace (handle timing around) s).filterMap takenAt? =
        [around.now s.outside] ∧
      Defers around m (s.taken (around.now s.outside))
        ((tick timing).run (handle timing around) s).2 := by
  obtain ⟨result, t, h⟩ : ∃ result t, around.reconcile (.text (s.schedule.reason timing))
    (s.taken (around.now s.outside)) = (result, t) := ⟨_, _, rfl⟩
  have hclaim := claim_of_le hnow
  obtain ⟨xs, htrace, hothers⟩ := trace_run timing h
  have htick : (tick timing).trace (handle timing around) s =
      ⟨.now, .ok (around.now s.outside)⟩ ::
        ⟨.schedule (.claim (around.now s.outside)), .ok (.run (s.schedule.reason timing))⟩ ::
          ⟨.reconcile (.text (s.schedule.reason timing)), result⟩ :: xs := by
    rw [trace_tick hclaim, trace_task_run]
    exact congrArg _ (congrArg _ htrace)
  constructor
  · rw [htick]
    show _ :: xs.filterMap takenAt? = _
    rw [hothers]
  · have hlate' : FailsLate timing m ((run timing (.text (s.schedule.reason timing))).trace
        (handle timing around) (s.taken (around.now s.outside))) := by
      intro trigger fault hx
      refine hlate trigger fault ?_
      rw [htick]
      rw [htrace] at hx
      exact List.mem_cons_of_mem _ (List.mem_cons_of_mem _ hx)
    have hdefers := defers_run hpasses hlate'
    rw [gives_run h] at hdefers
    rw [(tick_of_run hclaim h).1]
    exact hdefers

/-! ## Runs that ticks start -/

/-- The pending retry stays far enough from the last run, which is the last one that a tick has
started, and these are apart. -/
theorem History.isSpaced (hpasses : around.LetsDefer m) (h : History timing around m starts s) :
    IsSpaced around m s ∧ (∀ t ∈ starts.getLast?, t = s.schedule.lastRun) ∧
      Apart (min m timing.interval) starts := by
  induction h with
  | new outside => exact ⟨⟨le_rfl, nofun⟩, nofun, .nil⟩
  | elapse _ hdefers ih =>
    obtain ⟨hspaced, hlast, hapart⟩ := ih
    exact ⟨hspaced.of_defers hdefers, fun t ht => (hlast t ht).trans hdefers.lastRun.symm, hapart⟩
  | @scheduleRetry starts s delay _ hdelay ih =>
    obtain ⟨hspaced, hlast, hapart⟩ := ih
    rw [run_scheduleRetry]
    have hdefers : Defers around m s (s.posted (around.now s.outside + delay)) :=
      .posted (by linarith)
    exact ⟨hspaced.of_defers hdefers, fun t ht => (hlast t ht).trans hdefers.lastRun.symm, hapart⟩
  | @run starts s trigger _ hlate ih =>
    obtain ⟨hspaced, hlast, hapart⟩ := ih
    have hdefers : Defers around m s _ := defers_run hpasses hlate
    exact ⟨hspaced.of_defers hdefers, fun t ht => (hlast t ht).trans hdefers.lastRun.symm, hapart⟩
  | @tick starts s _ hlate ih =>
    obtain ⟨hspaced, hlast, hapart⟩ := ih
    rcases lt_or_ge (around.now s.outside) (s.schedule.dueAt timing) with hnow | hnow
    · rw [takenAt?_tick_of_lt hnow, List.append_nil, (tick_of_wait (claim_of_lt hnow)).1]
      exact ⟨hspaced, hlast, hapart⟩
    · obtain ⟨htaken, hdefers⟩ := tick_of_le hnow hpasses hlate
      rw [htaken]
      refine ⟨(isSpaced_taken s).of_defers hdefers, fun t ht => ?_, hapart.concat fun t ht => ?_⟩
      · rw [List.getLast?_concat] at ht
        obtain rfl := Option.some.inj ht
        exact hdefers.lastRun.symm
      -- the run that was due is due by a retry, which is not too near, or by the interval
      · obtain rfl := hlast t ht
        refine le_trans ?_ hnow
        rw [Schedule.dueAt]
        cases hretry : s.schedule.retryAt with
        | none => exact add_le_add_right (min_le_right _ _) _
        | some r =>
          have hr : s.schedule.lastRun + m ≤ r := hspaced.retryAt r hretry
          have hm : min m timing.interval ≤ m := min_le_left _ _
          have hinterval : min m timing.interval ≤ timing.interval := min_le_right _ _
          exact le_min (by linarith) (by linarith)

/-- Whatever runs, retries that are asked for and ticks come one after the other, as long as every
retry is posted at least `m` ahead, the runs that ticks start are at least `m` or the interval
apart, so if both are positive not many of them start within any period. -/
theorem runs_apart [FloorSemiring K] (hpasses : around.LetsDefer m)
    (h : History timing around m starts s) :
    Apart (min m timing.interval) starts ∧
      (0 < m → 0 < timing.interval →
        ∀ a L, countWithin a L starts ≤ ⌊L / min m timing.interval⌋₊ + 1) := by
  obtain ⟨-, -, hapart⟩ := h.isSpaced hpasses
  exact ⟨hapart, fun hm hinterval => hapart.countWithin_le (lt_min hm hinterval)⟩

end

namespace Example

/-- The schedule when an event has started a run soon after the one that has failed. -/
def failedAgain : ScheduleState ℚ ℚ :=
  ((run timing (.text "event")).run (handle timing failing) failed).2

/-- Ten seconds after the first failure. -/
def later : ScheduleState ℚ ℚ := { failedAgain with outside := 312 }

theorem letsDefer_failing : failing.LetsDefer 10 := fun _ _ =>
  ⟨⟨le_add_of_nonneg_right (by norm_num), rfl, [], rfl⟩, fun _ hr => .inl hr⟩

/-- Every failure asks for ten seconds. -/
theorem failsLate_trace {α : Type} (p : Task ℚ α) (s : ScheduleState ℚ ℚ) :
    FailsLate timing 10 (p.trace (handle timing failing) s) := by
  intro trigger fault hx
  have hanswers : ∀ (q : Request ℚ) (s : ScheduleState ℚ ℚ) trigger fault,
      (⟨q, (handle timing failing q s).1⟩ : Exchange (requests ℚ) (Fault ℚ)) =
        ⟨.reconcile trigger, .error fault⟩ → 10 ≤ retryDelay timing fault := by
    intro q s trigger fault hq
    cases q with
    | reconcile cause =>
      cases hq
      exact le_rfl
    | _ => cases hq
  exact forall_mem_trace (P := fun x : Exchange (requests ℚ) (Fault ℚ) => ∀ trigger fault,
    x = ⟨.reconcile trigger, .error fault⟩ → 10 ≤ retryDelay timing fault) hanswers p s _ hx
      trigger fault rfl

theorem history_later : History timing failing 10 [300] later := by
  have hdue : History timing failing 10 [] due :=
    .elapse (.new 0) ⟨⟨by norm_num [failing, due], rfl, [], rfl⟩, nofun⟩
  have hfailed := hdue.tick (failsLate_trace _ _)
  have hstarts : ((tick timing).trace (handle timing failing) due).filterMap takenAt? = [300] := by
    decide +kernel
  rw [hstarts, List.nil_append] at hfailed
  have hagain := hfailed.run (.text "event") (failsLate_trace _ _)
  have hclock : failing.now failedAgain.outside ≤ failing.now later.outside := by decide +kernel
  exact hagain.elapse ⟨⟨hclock, rfl, [], rfl⟩, fun _ hr => .inl hr⟩

end Example

open Example in
/-- A tick starts the retry ten seconds after the failure of a run, though another run has failed in
between. -/
theorem runs_apart_after_failures :
    Apart (min 10 timing.interval) [300, 312] ∧
      ∀ a L, countWithin a L [300, 312] ≤ ⌊L / min 10 timing.interval⌋₊ + 1 := by
  have hhistory := history_later.tick (failsLate_trace _ _)
  have hstarts :
      ((tick timing).trace (handle timing failing) later).filterMap takenAt? = [312] := by
    decide +kernel
  rw [hstarts] at hhistory
  obtain ⟨hapart, hwithin⟩ := runs_apart letsDefer_failing hhistory
  exact ⟨hapart, hwithin (by norm_num) (by norm_num [timing])⟩

end SecretMirror.Resync
