import Mathlib.Tactic.Linarith
import SecretMirror.Proofs.ExactTime
import SecretMirror.Proofs.Tracing
import SecretMirror.Resync.Loop

/-!
# What is due is run

A schedule goes through a history of retries that are asked for, runs, and ticks (`Reachable`).
Between these calls, and while a reconciliation goes on, time passes and others may post
(`Elapses`); the clock never goes back.  What ticks rely on is that the last run is never in the
future (`Reachable.lastRun_le`).

A run is due at the regular time, or when the pending retry is due if that is sooner
(`Schedule.dueAt`).  A tick runs just what is due and otherwise tells how long nothing will be
(`tick_runs_what_is_due`).  After a run, what is pending is the soonest of what was posted since it
was taken (`retryAt_run`).
-/

namespace SecretMirror.Resync

open Program hiding bind ask

variable {τ S : Type}

/-! ## The calls -/

/-- The request takes time, so it is one of those by which a tick shows: a reconciliation or a pause
of the loop.  Reading the clock and changing the schedule take none. -/
def Request.takesTime : Request τ → Bool
  | .reconcile _ => true
  | .pause _ => true
  | _ => false

/-- The reconciliations and pauses that were asked for, in order. -/
def undertakings (xs : List (Exchange (requests τ) (Fault τ))) : List (Request τ) :=
  (xs.map Exchange.request).filter Request.takesTime

section Calls

variable [Time τ] {timing : Timing τ} {around : Surroundings τ S} {s t : ScheduleState τ S}

/-- The state after a retry was posted for a time.  Posting also sets the event that wakes the loop,
as `schedule_retry` does. -/
def ScheduleState.posted (s : ScheduleState τ S) (due : τ) : ScheduleState τ S :=
  { s with schedule := { s.schedule.post due with wakeup := true } }

def ScheduleState.postedAll (s : ScheduleState τ S) (dues : List τ) : ScheduleState τ S :=
  dues.foldl ScheduleState.posted s

/-- The state when a tick has taken the run that is due at a time.  Nothing is pending any more and
the time is the last run's, before the reconciliation itself begins. -/
def ScheduleState.taken (s : ScheduleState τ S) (now : τ) : ScheduleState τ S :=
  { s with schedule := { s.schedule with retryAt := none, lastRun := now } }

/-- What a run posts itself when its reconciliation has ended: nothing after a success, and after a
failure the retry that `retryDelay` gives, counted from the end of the reconciliation. -/
def ownPosts (timing : Timing τ) (around : Surroundings τ S) (result : Except (Fault τ) Unit)
    (ended : ScheduleState τ S) : List τ :=
  match result with
  | .ok _ => []
  | .error fault => [around.now ended.outside + retryDelay timing fault]

theorem run_scheduleRetry (delay : τ) (s : ScheduleState τ S) :
    (scheduleRetry delay).run (handle timing around) s =
      (.ok (), s.posted (around.now s.outside + delay)) := rfl

/-- A run never fails itself.  Its reconciliation may, and then a retry is posted; this is the one
way in which a failure shows in the schedule. -/
theorem gives_run {trigger : Value} {result : Except (Fault τ) Unit}
    (h : around.reconcile trigger s = (result, t)) :
    (run timing trigger).Gives (handle timing around) s ()
      (t.postedAll (ownPosts timing around result t)) := by
  have hhandle : handle timing around (.reconcile trigger) s = (result, t) := h
  rw [Gives, run, recover, run_outcome, Program.request, run_ask, hhandle]
  cases result with
  | ok done => rfl
  | error fault => rfl

/-- A run undertakes one reconciliation, whatever comes of it, and makes no pause. -/
theorem undertakings_run (trigger : Value) (s : ScheduleState τ S) :
    undertakings ((run timing trigger).trace (handle timing around) s) = [.reconcile trigger] := by
  obtain ⟨result, t, h⟩ : ∃ result t, handle timing around (.reconcile trigger) s = (result, t) :=
    ⟨_, _, rfl⟩
  rw [run, recover, trace_outcome, Program.request, trace_ask, run_ask, h]
  cases result with
  | ok done => rfl
  | error fault => rfl

/-- What a tick does about its claim. -/
def Claim.task (timing : Timing τ) : Claim τ → Task τ τ
  | .wait time => pure time
  | .run trigger => do
    Resync.run timing (.text trigger)
    return 0

theorem tick_eq (timing : Timing τ) :
    tick timing = (do
      let t ← now
      let claim ← step (.claim t)
      claim.task timing) := by
  unfold tick
  congr 1
  funext t
  congr 1
  funext claim
  cases claim with
  | wait time => rfl
  | run trigger => rfl

/-- A tick reads the clock once, makes its claim by that reading, and then does what the claim tells
it to. -/
theorem tick_of_claim {claim : Claim τ} {schedule : Schedule τ}
    (h : s.schedule.claim timing (around.now s.outside) = (claim, schedule)) :
    (tick timing).run (handle timing around) s =
        (claim.task timing).run (handle timing around) { s with schedule := schedule } ∧
      undertakings ((tick timing).trace (handle timing around) s) =
        undertakings ((claim.task timing).trace (handle timing around)
          { s with schedule := schedule }) := by
  have hnow : (now (τ := τ)).Gives (handle timing around) s (around.now s.outside) s :=
    gives_request rfl
  have hclaim : (step (.claim (around.now s.outside))).Gives (handle timing around) s claim
      { s with schedule := schedule } := by
    refine gives_request ?_
    show ((Except.ok (s.schedule.claim timing _).1,
      { s with schedule := (s.schedule.claim timing _).2 }) : _ × ScheduleState τ S) = _
    rw [h]
  rw [tick_eq]
  constructor
  · rw [run_bind, hnow, resume_ok, run_bind, hclaim, resume_ok]
  · rw [trace_bind, hnow, resume_ok, trace_bind, hclaim, resume_ok]
    rfl

theorem tick_of_wait {time : τ}
    (h : s.schedule.claim timing (around.now s.outside) = (.wait time, s.schedule)) :
    (tick timing).Gives (handle timing around) s time s ∧
      undertakings ((tick timing).trace (handle timing around) s) = [] :=
  tick_of_claim h

theorem trace_task_run (trigger : String) (s : ScheduleState τ S) :
    (Claim.task timing (.run trigger)).trace (handle timing around) s =
      (run timing (.text trigger)).trace (handle timing around) s := by
  have hrun : (run timing (.text trigger)).Gives (handle timing around) s () _ := gives_run rfl
  rw [Claim.task, trace_bind, hrun, resume_ok]
  exact List.append_nil _

theorem tick_of_run {trigger : String} {result : Except (Fault τ) Unit}
    (h : s.schedule.claim timing (around.now s.outside) =
      (.run trigger, (s.taken (around.now s.outside)).schedule))
    (hreconciled : around.reconcile (.text trigger) (s.taken (around.now s.outside)) =
      (result, t)) :
    (tick timing).Gives (handle timing around) s 0
        (t.postedAll (ownPosts timing around result t)) ∧
      undertakings ((tick timing).trace (handle timing around) s) =
        [.reconcile (.text trigger)] := by
  have hrun : (run timing (.text trigger)).Gives (handle timing around)
      (s.taken (around.now s.outside)) () _ := gives_run hreconciled
  obtain ⟨htick, hundertaken⟩ := tick_of_claim h
  constructor
  · exact htick.trans (gives_bind hrun (gives_pure 0 _))
  · rw [hundertaken]
    exact (congrArg undertakings (trace_task_run trigger _)).trans (undertakings_run _ _)

/-- A round of a loop that need not stop undertakes what its tick does, and pauses for the time it
is told to wait. -/
theorem undertakings_round {time : τ} (hstopped : s.schedule.stopped = false)
    (h : (tick timing).Gives (handle timing around) s time t) :
    undertakings ((round timing).trace (handle timing around) s) =
      undertakings ((tick timing).trace (handle timing around) s) ++
        if 0 < time then [.pause time] else [] := by
  have hasked : (step (τ := τ) .isStopped).Gives (handle timing around) s false s := by
    refine gives_request ?_
    show ((Except.ok s.schedule.stopped, s) : _ × ScheduleState τ S) = _
    rw [hstopped]
  have hrest : undertakings ((round timing).trace (handle timing around) s) =
      undertakings ((tick timing >>= fun time => do
        if 0 < time then
          Program.request (σ := requests τ) (.pause time)
          step .settle
        return true).trace (handle timing around) s) := by
    rw [round, trace_bind, hasked, resume_ok]
    rfl
  rw [hrest, trace_bind, h, resume_ok, undertakings, List.map_append, List.filter_append]
  congr 1
  by_cases hpos : 0 < time
  · rw [if_pos hpos, if_pos hpos]
    rfl
  · rw [if_neg hpos, if_neg hpos]
    rfl

/-! ## Histories -/

/-- From one state to the next time passes and others post retries.  The clock does not go back, the
last run is the same, and what is pending is what the posts make of it. -/
structure Elapses (around : Surroundings τ S) (s t : ScheduleState τ S) : Prop where
  clock : around.now s.outside ≤ around.now t.outside
  lastRun : t.schedule.lastRun = s.schedule.lastRun
  retryAt : ∃ dues, t.schedule.retryAt = (s.postedAll dues).schedule.retryAt

/-- The states that a new schedule comes to by `schedule_retry`, `run` and `tick`, where time passes
and others post between these calls and while a reconciliation goes on. -/
inductive Reachable (timing : Timing τ) (around : Surroundings τ S) : ScheduleState τ S → Prop where
  | new (outside : S) :
    Reachable timing around ⟨{ lastRun := around.now outside }, outside⟩
  | elapse {s t : ScheduleState τ S} :
    Reachable timing around s → Elapses around s t → Reachable timing around t
  | scheduleRetry {s : ScheduleState τ S} (delay : τ) : Reachable timing around s →
    Reachable timing around ((scheduleRetry delay).run (handle timing around) s).2
  | run {s : ScheduleState τ S} (trigger : Value) : Reachable timing around s →
    Reachable timing around ((run timing trigger).run (handle timing around) s).2
  | tick {s : ScheduleState τ S} : Reachable timing around s →
    Reachable timing around ((tick timing).run (handle timing around) s).2

/-- While a reconciliation goes on, time passes and others post, and nothing else happens to the
schedule.  In particular no second loop takes a run meanwhile. -/
def Surroundings.LetsElapse (around : Surroundings τ S) : Prop :=
  ∀ trigger s, Elapses around s (around.reconcile trigger s).2

end Calls

/-! ## The soonest of what is posted -/

section Due

variable {K : Type} [LinearOrder K]

theorem min?_toList_append (xs ys : List K) : (xs.min?.toList ++ ys).min? = (xs ++ ys).min? := by
  cases xs with
  | nil => rfl
  | cons x xs =>
    rw [List.cons_append, List.min?_cons', List.min?_cons', List.foldl_append]
    rfl

variable [Field K] {timing : Timing K} {around : Surroundings K S} {s t u : ScheduleState K S}

theorem retryAt_post (due : K) (s : Schedule K) :
    (s.post due).retryAt = (s.retryAt.toList ++ [due]).min? := by
  rw [Schedule.post]
  cases h : s.retryAt with
  | none => rfl
  | some r =>
    show _ = some (min r due)
    by_cases hlt : due < r
    · simp [hlt, hlt.le]
    · simp [hlt, h, not_lt.1 hlt]

/-- Of all that is posted the soonest is kept, whatever the order of the posts. -/
theorem retryAt_postedAll (dues : List K) (s : ScheduleState K S) :
    (s.postedAll dues).schedule.retryAt = (s.schedule.retryAt.toList ++ dues).min? := by
  induction dues generalizing s with
  | nil =>
    rw [List.append_nil]
    cases h : s.schedule.retryAt with
    | none => exact h
    | some r => exact h
  | cons due dues ih =>
    have hpost : (s.posted due).schedule.retryAt = (s.schedule.retryAt.toList ++ [due]).min? :=
      retryAt_post due s.schedule
    show ((s.posted due).postedAll dues).schedule.retryAt = _
    rw [ih, hpost, min?_toList_append, List.append_assoc, List.singleton_append]

/-! ## Time that passes -/

theorem Elapses.refl (s : ScheduleState K S) : Elapses around s s := ⟨le_rfl, rfl, [], rfl⟩

theorem Elapses.trans (h : Elapses around s t) (h' : Elapses around t u) : Elapses around s u := by
  obtain ⟨dues, hdues⟩ := h.retryAt
  obtain ⟨dues', hdues'⟩ := h'.retryAt
  refine ⟨h.clock.trans h'.clock, h'.lastRun.trans h.lastRun, dues ++ dues', ?_⟩
  rw [hdues', retryAt_postedAll, hdues, retryAt_postedAll, min?_toList_append, retryAt_postedAll,
    List.append_assoc]

theorem Elapses.posted (due : K) (s : ScheduleState K S) : Elapses around s (s.posted due) := by
  refine ⟨le_rfl, ?_, [due], rfl⟩
  show (s.schedule.post due).lastRun = _
  rw [Schedule.post]
  split
  · rfl
  · split
    · rfl
    · rfl

theorem Elapses.postedAll (dues : List K) (s : ScheduleState K S) :
    Elapses around s (s.postedAll dues) := by
  induction dues generalizing s with
  | nil => exact .refl s
  | cons due dues ih => exact (Elapses.posted due s).trans (ih _)

theorem Surroundings.LetsElapse.elapses {trigger : Value} {result : Except (Fault K) Unit}
    (hpasses : around.LetsElapse) (h : around.reconcile trigger s = (result, t)) :
    Elapses around s t := by
  have hpassed : Elapses around s (around.reconcile trigger s).2 := hpasses trigger s
  rwa [h] at hpassed

theorem elapses_run (timing : Timing K) (hpasses : around.LetsElapse) (trigger : Value)
    (s : ScheduleState K S) :
    Elapses around s ((run timing trigger).run (handle timing around) s).2 := by
  obtain ⟨result, t, h⟩ : ∃ result t, around.reconcile trigger s = (result, t) := ⟨_, _, rfl⟩
  have hreconciled : Elapses around s t := hpasses.elapses h
  have hrun : (run timing trigger).Gives (handle timing around) s () _ := gives_run h
  rw [hrun]
  exact hreconciled.trans (.postedAll _ t)

/-! ## What is due -/

/-- When a run is due: at the regular time, or when the pending retry is due if that is sooner. -/
def Schedule.dueAt (timing : Timing K) (s : Schedule K) : K :=
  match s.retryAt with
  | none => s.lastRun + timing.interval
  | some r => min (s.lastRun + timing.interval) r

/-- Why a run is due: for the retry if one is pending that comes strictly before the regular time.
Where both fall together the trigger is the timer. -/
def Schedule.reason (timing : Timing K) (s : Schedule K) : String :=
  if s.retryAt.any (· < s.lastRun + timing.interval) then "retry" else "timer"

theorem next_eq (timing : Timing K) (s : Schedule K) :
    s.next timing = (s.dueAt timing, s.reason timing) := by
  rw [Schedule.next, Schedule.dueAt, Schedule.reason]
  cases s.retryAt with
  | none => rfl
  | some r =>
    by_cases hlt : r < s.lastRun + timing.interval
    · simp [hlt, hlt.le]
    · simp [hlt, not_lt.1 hlt]

theorem claim_of_lt {now : K} {s : Schedule K} (h : now < s.dueAt timing) :
    s.claim timing now = (.wait (s.dueAt timing - now), s) := by
  rw [Schedule.claim, next_eq]
  exact if_pos h

theorem claim_of_le {now : K} {s : Schedule K} (h : s.dueAt timing ≤ now) :
    s.claim timing now =
      (.run (s.reason timing), { s with retryAt := none, lastRun := now }) := by
  rw [Schedule.claim, next_eq]
  exact if_neg h.not_gt

/-- The last run is never in the future, since the clock never goes back.  This bounds a wait by the
interval. -/
theorem Reachable.lastRun_le (hpasses : around.LetsElapse) (hs : Reachable timing around s) :
    s.schedule.lastRun ≤ around.now s.outside := by
  induction hs with
  | new outside => exact le_rfl
  | elapse _ helapses ih => exact helapses.lastRun.le.trans (ih.trans helapses.clock)
  | @scheduleRetry s delay _ ih =>
    rw [run_scheduleRetry]
    have helapses : Elapses around s _ := .posted (around.now s.outside + delay) s
    exact helapses.lastRun.le.trans ih
  | @run s trigger _ ih =>
    have helapses : Elapses around s _ := elapses_run timing hpasses trigger s
    exact helapses.lastRun.le.trans (ih.trans helapses.clock)
  -- A tick moves the last run only to the present time.
  | @tick s _ ih =>
    rcases lt_or_ge (around.now s.outside) (s.schedule.dueAt timing) with hnow | hnow
    · rw [(tick_of_wait (claim_of_lt hnow)).1]
      exact ih
    · obtain ⟨result, t, h⟩ : ∃ result t, around.reconcile (.text (s.schedule.reason timing))
        (s.taken (around.now s.outside)) = (result, t) := ⟨_, _, rfl⟩
      have helapses : Elapses around (s.taken (around.now s.outside)) _ :=
        elapses_run timing hpasses (.text (s.schedule.reason timing)) _
      rw [gives_run h] at helapses
      rw [(tick_of_run (claim_of_le hnow) h).1]
      exact helapses.lastRun.le.trans helapses.clock

/-! ## Ticks -/

/-- A tick runs what is due.  It reconciles once, for the reason that there is, and tells not to
wait.  Its time is the last run's.  What was pending is settled, and a retry is pending afterwards
just if one was posted since: the soonest of what others posted while the reconciliation went on
(`dues`) and what was posted because it failed. -/
structure RunsDue (timing : Timing K) (around : Surroundings K S) (s : ScheduleState K S) :
    Prop where
  undertakes : undertakings ((tick timing).trace (handle timing around) s) =
    [.reconcile (.text (s.schedule.reason timing))]
  gives : ∃ result t u,
    around.reconcile (.text (s.schedule.reason timing)) (s.taken (around.now s.outside)) =
        (result, t) ∧
      Elapses around (s.taken (around.now s.outside)) t ∧
      (tick timing).Gives (handle timing around) s 0 u ∧
      u.schedule.lastRun = around.now s.outside ∧
      ∀ dues, t.schedule.retryAt =
          ((s.taken (around.now s.outside)).postedAll dues).schedule.retryAt →
        u.schedule.retryAt = (dues ++ ownPosts timing around result t).min?
  round : s.schedule.stopped = false →
    undertakings ((round timing).trace (handle timing around) s) =
      [.reconcile (.text (s.schedule.reason timing))]

/-- Nothing is due for a time.  A tick changes nothing and tells this time, which is positive, not
longer than the interval and over before a pending retry is due.  As long as nothing is posted, a
tick undertakes nothing before the time is over and reconciles from then on.  The loop pauses for
just this time. -/
structure Waits (timing : Timing K) (around : Surroundings K S) (s : ScheduleState K S) (time : K) :
    Prop where
  gives : (tick timing).Gives (handle timing around) s time s
  idle : undertakings ((tick timing).trace (handle timing around) s) = []
  pos : 0 < time
  le_interval : time ≤ timing.interval
  le_retryAt : ∀ r ∈ s.schedule.retryAt, around.now s.outside + time ≤ r
  idle_before : ∀ t : ScheduleState K S, t.schedule.lastRun = s.schedule.lastRun →
    t.schedule.retryAt = s.schedule.retryAt → around.now t.outside < around.now s.outside + time →
    undertakings ((tick timing).trace (handle timing around) t) = []
  runs_after : ∀ t : ScheduleState K S, t.schedule.lastRun = s.schedule.lastRun →
    t.schedule.retryAt = s.schedule.retryAt → around.now s.outside + time ≤ around.now t.outside →
    undertakings ((tick timing).trace (handle timing around) t) =
      [.reconcile (.text (s.schedule.reason timing))]
  round : s.schedule.stopped = false →
    undertakings ((round timing).trace (handle timing around) s) = [.pause time]

/-- After a run that was taken, what is pending is the soonest of what was posted since, by others
or by the run itself. -/
theorem retryAt_run {own dues : List K} (hs : s.schedule.retryAt = none)
    (h : t.schedule.retryAt = (s.postedAll dues).schedule.retryAt) :
    (t.postedAll own).schedule.retryAt = (dues ++ own).min? := by
  rw [retryAt_postedAll, h, retryAt_postedAll, hs, min?_toList_append]
  rfl

theorem runsDue (hpasses : around.LetsElapse)
    (hdue : s.schedule.dueAt timing ≤ around.now s.outside) : RunsDue timing around s := by
  obtain ⟨result, t, h⟩ : ∃ result t, around.reconcile (.text (s.schedule.reason timing))
    (s.taken (around.now s.outside)) = (result, t) := ⟨_, _, rfl⟩
  obtain ⟨htick, hundertaken⟩ := tick_of_run (claim_of_le hdue) h
  have helapses : Elapses around (s.taken (around.now s.outside)) t := hpasses.elapses h
  have hposted : Elapses around t (t.postedAll (ownPosts timing around result t)) := .postedAll _ t
  exact {
    undertakes := hundertaken
    gives := ⟨result, t, _, h, helapses, htick, hposted.lastRun.trans helapses.lastRun,
      fun dues hdues => retryAt_run rfl hdues⟩
    round := fun hstopped => by
      rw [undertakings_round hstopped htick, hundertaken, if_neg (lt_irrefl 0)]
      rfl }

/-- What a tick at another time finds is the same as long as nothing is posted. -/
theorem dueAt_congr (timing : Timing K) (hlast : t.schedule.lastRun = s.schedule.lastRun)
    (hretry : t.schedule.retryAt = s.schedule.retryAt) :
    t.schedule.dueAt timing = s.schedule.dueAt timing ∧
      t.schedule.reason timing = s.schedule.reason timing := by
  rw [Schedule.dueAt, Schedule.dueAt, Schedule.reason, Schedule.reason, hlast, hretry]
  exact ⟨rfl, rfl⟩

theorem dueAt_le_regular (s : Schedule K) : s.dueAt timing ≤ s.lastRun + timing.interval := by
  rw [Schedule.dueAt]
  cases s.retryAt with
  | none => exact le_rfl
  | some r => exact min_le_left _ _

theorem dueAt_le_retryAt {s : Schedule K} {r : K} (h : r ∈ s.retryAt) : s.dueAt timing ≤ r := by
  rw [Schedule.dueAt, Option.mem_def.1 h]
  exact min_le_right _ _

variable [IsStrictOrderedRing K]

theorem waits (hlast : s.schedule.lastRun ≤ around.now s.outside)
    (hdue : around.now s.outside < s.schedule.dueAt timing) :
    Waits timing around s (s.schedule.dueAt timing - around.now s.outside) := by
  obtain ⟨htick, hundertaken⟩ := tick_of_wait (claim_of_lt hdue)
  have hpos : 0 < s.schedule.dueAt timing - around.now s.outside := sub_pos.2 hdue
  have hover : around.now s.outside + (s.schedule.dueAt timing - around.now s.outside) =
      s.schedule.dueAt timing := add_sub_cancel _ _
  have hregular : s.schedule.dueAt timing ≤ s.schedule.lastRun + timing.interval :=
    dueAt_le_regular _
  exact {
    gives := htick
    idle := hundertaken
    pos := hpos
    le_interval := by linarith
    le_retryAt := fun r hr => hover.le.trans (dueAt_le_retryAt hr)
    idle_before := fun t htlast htretry ht => by
      obtain ⟨hsame, -⟩ := dueAt_congr timing htlast htretry
      rw [hover, ← hsame] at ht
      exact (tick_of_wait (claim_of_lt ht)).2
    runs_after := fun t htlast htretry ht => by
      obtain ⟨hsame, hreason⟩ := dueAt_congr timing htlast htretry
      rw [hover, ← hsame] at ht
      rw [← hreason]
      exact (tick_of_run (claim_of_le ht) rfl).2
    round := fun hstopped => by
      rw [undertakings_round hstopped htick, hundertaken, if_pos hpos]
      rfl }

/-- From every state that can be reached, a tick reconciles just if a run is due, which takes one
reconciliation with the right trigger and settles what was pending; otherwise it does nothing but
tell how long none will be due, and this wait is sound and as long as it may be. -/
theorem tick_runs_what_is_due (hpasses : around.LetsElapse)
    (hs : Reachable timing around s) :
    ((∃ trigger, .reconcile trigger ∈ undertakings ((tick timing).trace (handle timing around) s)) ↔
      s.schedule.dueAt timing ≤ around.now s.outside) ∧
    (s.schedule.dueAt timing ≤ around.now s.outside → RunsDue timing around s) ∧
    (around.now s.outside < s.schedule.dueAt timing →
      Waits timing around s (s.schedule.dueAt timing - around.now s.outside)) := by
  have hlast : s.schedule.lastRun ≤ around.now s.outside := hs.lastRun_le hpasses
  refine ⟨⟨fun ⟨trigger, htrigger⟩ => ?_, fun hdue => ?_⟩, runsDue hpasses, waits hlast⟩
  · by_contra hnow
    rw [(waits hlast (not_le.1 hnow)).idle] at htrigger
    cases htrigger
  · rw [(runsDue hpasses hdue).undertakes]
    exact ⟨_, List.mem_singleton_self _⟩

end Due

namespace Example

/-- Every reconciliation takes two seconds and fails with a delay of its own, ten seconds. -/
def failing : Surroundings ℚ ℚ where
  now clock := clock
  pause time s := { s with outside := s.outside + time }
  reconcile _ s := (.error (.temporary "refused" (some 10) none),
    { s with outside := s.outside + 2 })

/-- Runs are due every five minutes. -/
def timing : Timing ℚ := ⟨300, 30⟩

/-- A schedule whose first regular run is due. -/
def due : ScheduleState ℚ ℚ := ⟨{ lastRun := 0 }, 300⟩

/-- The schedule when this run has failed. -/
def failed : ScheduleState ℚ ℚ := ((tick timing).run (handle timing failing) due).2

end Example

open Example in
/-- The regular run is due and fails, and then nothing is due for the ten seconds that the fault
asks for. -/
theorem tick_runs_failing_reconciliation :
    RunsDue timing failing due ∧ Waits timing failing failed 10 := by
  have hpasses : failing.LetsElapse := fun _ s =>
    ⟨le_add_of_nonneg_right (by norm_num), rfl, [], rfl⟩
  have hdue : Reachable timing failing due :=
    .elapse (.new 0) ⟨by norm_num [failing, due], rfl, [], rfl⟩
  have hfailed : Reachable timing failing failed := .tick hdue
  have htime : failed.schedule.dueAt timing - failing.now failed.outside = 10 := by decide +kernel
  constructor
  · exact (tick_runs_what_is_due hpasses hdue).2.1 (by decide +kernel)
  · rw [← htime]
    exact (tick_runs_what_is_due hpasses hfailed).2.2 (by decide +kernel)

end SecretMirror.Resync
