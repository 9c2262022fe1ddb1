import SecretMirror.Time
import SecretMirror.Fault

/-!
# When to reconcile next

Besides the runs that watch events start, a reconciliation runs every `interval` seconds, and a
failed one is tried again.  A `Schedule` holds the time of the last run that a tick started and the
time of the pending retry, if there is one, and two flags: that something new was posted, and that
the loop has to stop.  Of several retries the soonest counts.

The operations are the sections that run without interruption: `post` keeps the sooner of two
retries, and `claim` either takes the run that is due or tells how long nothing will be.
-/

namespace SecretMirror.Resync

/-- How often to reconcile, and how soon after a failure that does not say so itself. -/
structure Timing (τ : Type) where
  interval : τ
  errorDelay : τ

/-- When the last run was and when the next is wanted, with the two flags of the loop.  All threads
share it, so it is changed in single steps only. -/
structure Schedule (τ : Type) where
  /-- When a tick last started a run; at first, when the schedule was made. -/
  lastRun : τ
  /-- When the pending retry is due. -/
  retryAt : Option τ := none
  /-- Whether something was posted since the loop last looked. -/
  wakeup : Bool := false
  /-- Whether the loop has to stop. -/
  stopped : Bool := false

/-- What a tick finds: a run that is due, which it has taken by finding it, or how long nothing will
be. -/
inductive Claim (τ : Type) where
  /-- Nothing is due for this long. -/
  | wait (time : τ)
  /-- A run is due, for this reason. -/
  | run (trigger : String)

namespace Schedule

variable {τ : Type} [Time τ]

/-- Wants a run at `due`, unless a sooner one is wanted already (`schedule_retry`, under its
lock). -/
def post (due : τ) (s : Schedule τ) : Schedule τ :=
  match s.retryAt with
  | none => { s with retryAt := some due }
  | some r => if due < r then { s with retryAt := some due } else s

/-- When the next run is due and for what reason: the retry if it comes strictly before the next
regular run, otherwise the regular run. -/
def next (timing : Timing τ) (s : Schedule τ) : τ × String :=
  let regular := s.lastRun + timing.interval
  match s.retryAt with
  | some r => if r < regular then (r, "retry") else (regular, "timer")
  | none => (regular, "timer")

/-- Takes the run that is due at `now`, or tells how long nothing will be due (`tick`, under its
lock).  To take a run settles the pending retry, whether or not this run is the retry. -/
def claim (timing : Timing τ) (now : τ) (s : Schedule τ) : Claim τ × Schedule τ :=
  let (due, trigger) := s.next timing
  if now < due then (.wait (due - now), s)
  else (.run trigger, { s with retryAt := none, lastRun := now })

end Schedule

/-- How long after a failure the run is repeated: as long as the failure says, if it is a temporary
one that does, and for the common delay otherwise. -/
def retryDelay {τ : Type} (timing : Timing τ) : Fault τ → τ
  | .temporary _ (some delay) _ => delay
  | _ => timing.errorDelay

end SecretMirror.Resync
