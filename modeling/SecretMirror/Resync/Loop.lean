import SecretMirror.Program
import SecretMirror.Resync.Schedule

/-!
# Running reconciliations

The programs that share a schedule: a run that schedules its own retry when it fails, a tick that
starts the run that is due, the loop that ticks and waits, and the request to stop it.  They touch
the schedule in single steps that other threads may come between, and they ask for the time, for a
pause and for the reconciliation itself.

`Resync.handle` answers these requests from a schedule and its surroundings.
-/

namespace SecretMirror.Resync

variable {τ S : Type}

/-- The steps on a shared schedule that run without interruption: its locked sections, and the
settings and readings of its flags. -/
inductive Step (τ : Type) where
  /-- Wants a run at a time. -/
  | post (due : τ)
  /-- Says that something was posted. -/
  | wake
  /-- Forgets that something was posted. -/
  | settle
  /-- Takes the run that is due at a time. -/
  | claim (now : τ)
  /-- Asks whether the loop has to stop. -/
  | isStopped
  /-- Says that the loop has to stop. -/
  | stop
  /-- Says that the loop may go on. -/
  | resume

/-- The answer to a step. -/
abbrev Step.Answer : Step τ → Type
  | .post _ => Unit
  | .wake => Unit
  | .settle => Unit
  | .claim _ => Claim τ
  | .isStopped => Bool
  | .stop => Unit
  | .resume => Unit

/-- What a step answers and what it makes of the schedule.  Each step is taken under the lock, so
nothing comes between. -/
def Step.perform [Time τ] (timing : Timing τ) :
    (step : Step τ) → Schedule τ → step.Answer × Schedule τ
  | .post due, s => ((), s.post due)
  | .wake, s => ((), { s with wakeup := true })
  | .settle, s => ((), { s with wakeup := false })
  | .claim now, s => s.claim timing now
  | .isStopped, s => (s.stopped, s)
  | .stop, s => ((), { s with stopped := true })
  | .resume, s => ((), { s with stopped := false })

/-- What the programs around a schedule ask for.  Between any two of these requests another thread
may come. -/
inductive Request (τ : Type) where
  /-- A step on the schedule. -/
  | schedule (step : Step τ)
  /-- The reading of the clock. -/
  | now
  /-- To wait until something is posted, at most for a time. -/
  | pause (time : τ)
  /-- To reconcile, for a reason. -/
  | reconcile (trigger : Value)

abbrev requests (τ : Type) : Signature where
  Request := Request τ
  Answer
    | .schedule step => step.Answer
    | .now => τ
    | .pause _ => Unit
    | .reconcile _ => Unit

/-- A program around a schedule. -/
abbrev Task (τ α : Type) := Program (requests τ) (Fault τ) α

def step (s : Step τ) : Task τ s.Answer := Program.request (σ := requests τ) (.schedule s)

def now : Task τ τ := Program.request (σ := requests τ) .now

/-- Wants a run `delay` seconds from now (`schedule_retry`).  The time is read before the schedule
is touched, and the loop is woken after it. -/
def scheduleRetry [Time τ] (delay : τ) : Task τ Unit := do
  let t ← now
  step (.post (t + delay))
  step .wake

/-- Reconciles once and schedules a retry if that fails (`run`).  It never fails itself, so every
failure is repeated. -/
def run [Time τ] (timing : Timing τ) (trigger : Value) : Task τ Unit :=
  (Program.request (σ := requests τ) (.reconcile trigger)).recover fun fault =>
    scheduleRetry (retryDelay timing fault)

/-- Runs what is due (`tick`).  The value is the time until something is due, and zero after a
run. -/
def tick [Time τ] (timing : Timing τ) : Task τ τ := do
  let t ← now
  match ← step (.claim t) with
  | .wait time => return time
  | .run trigger => do
    run timing (.text trigger)
    return 0

/-- One round of the loop: a tick, and a pause if nothing was due (`_loop`).  The flag that ends the
pause is cleared after it, whoever has set it.  The value says whether the loop goes on. -/
def round [Time τ] (timing : Timing τ) : Task τ Bool := do
  if ← step .isStopped then return false
  else
    let time ← tick timing
    if 0 < time then
      Program.request (σ := requests τ) (.pause time)
      step .settle
    return true

/-- At most `n` rounds of the loop.  Each looks at the flag first and ends the loop if it is set. -/
def rounds [Time τ] (timing : Timing τ) : Nat → Task τ Unit
  | 0 => pure ()
  | n + 1 => do
    if ← round timing then rounds timing n else pure ()

/-- Asks the loop to stop, and then ends its pause, in this order, so a loop that wakes finds the
request. -/
def stop : Task τ Unit := do
  step .stop
  step .wake

/-! ## Answering the requests -/

/-- A schedule and what is around it. -/
structure ScheduleState (τ S : Type) where
  schedule : Schedule τ
  outside : S

/-- How the surroundings of a schedule behave: their clock, and what a pause and a reconciliation
do.  Either may also touch the schedule, as other threads do meanwhile. -/
structure Surroundings (τ S : Type) where
  now : S → τ
  pause : τ → ScheduleState τ S → ScheduleState τ S
  reconcile : Value → ScheduleState τ S → Except (Fault τ) Unit × ScheduleState τ S

/-- Answers the requests of a program around a schedule. -/
def handle [Time τ] (timing : Timing τ) (around : Surroundings τ S) :
    (q : (requests τ).Request) → ScheduleState τ S →
      Except (Fault τ) ((requests τ).Answer q) × ScheduleState τ S
  | .schedule step, s =>
    let (answer, schedule) := step.perform timing s.schedule
    (.ok answer, { s with schedule := schedule })
  | .now, s => (.ok (around.now s.outside), s)
  | .pause time, s => (.ok (), around.pause time s)
  | .reconcile trigger, s => around.reconcile trigger s

end SecretMirror.Resync
