import SecretMirror.Resync.Loop

/-!
# Scripted surroundings

Surroundings for the programs around a schedule in which everything is laid down beforehand: how
long each reconciliation takes and how it ends, and how long each pause lasts.  A pause lasts as
long as it may unless the script says otherwise, and a reconciliation beyond the script takes no
time and succeeds.

The loop is asked to stop when it has paused or reconciled as often as the limits allow.
-/

namespace SecretMirror.Resync

structure Course (τ : Type) where
  /-- How long it takes. -/
  takes : τ
  /-- What it fails with. -/
  fault? : Option (Fault τ) := none

/-- How many more pauses and reconciliations the loop is to begin. -/
structure Limits where
  pauses : Nat
  runs : Nat

/-- Scripted surroundings and a record of what happened in them. -/
structure Script (τ : Type) where
  /-- The reading of the clock. -/
  clock : τ
  /-- The reconciliations to come. -/
  courses : List (Course τ) := []
  /-- How long the pauses to come last; `none` for as long as they may. -/
  early : List (Option τ) := []
  /-- How far the loop may go. -/
  limits : Option Limits := none
  /-- The reconciliations that were begun, with their reasons and times. -/
  runs : List (Value × τ) := []
  /-- How long the pauses were allowed to last. -/
  pauses : List τ := []

namespace Script

variable {τ : Type} [Time τ]

/-- A pause that may last for a time.  The last one that the limits allow sets the flag by which the
loop stops. -/
def pause (time : τ) (s : ScheduleState τ (Script τ)) : ScheduleState τ (Script τ) :=
  let script := s.outside
  let lasts := (script.early.head?.bind id).getD time
  let left := script.limits.map fun l => { l with pauses := l.pauses - 1 }
  let isLast := left.any fun l => l.pauses == 0
  { schedule := { s.schedule with stopped := s.schedule.stopped || isLast }
    outside := { script with
      clock := script.clock + lasts
      early := script.early.drop 1
      limits := left
      pauses := script.pauses ++ [time] } }

/-- A reconciliation for a reason, which goes as the script says and touches nothing else. -/
def reconcile (trigger : Value) (s : ScheduleState τ (Script τ)) :
    Except (Fault τ) Unit × ScheduleState τ (Script τ) :=
  let script := s.outside
  let course : Course τ := script.courses.head?.getD { takes := 0 }
  let left := script.limits.map fun l => { l with runs := l.runs - 1 }
  let isLast := left.any fun l => l.runs == 0
  let result : Except (Fault τ) Unit := match course.fault? with
    | some fault => .error fault
    | none => .ok ()
  (result,
    { schedule := { s.schedule with stopped := s.schedule.stopped || isLast }
      outside := { script with
        clock := script.clock + course.takes
        courses := script.courses.drop 1
        limits := left
        runs := script.runs ++ [(trigger, script.clock)] } })

def surroundings : Surroundings τ (Script τ) where
  now := Script.clock
  pause := pause
  reconcile := reconcile

def perform {α : Type} (timing : Timing τ) (task : Task τ α) (s : ScheduleState τ (Script τ)) :
    Except (Fault τ) α × ScheduleState τ (Script τ) :=
  task.run (handle timing surroundings) s

/-- Runs the loop until the limits stop it.  Every round but the last begins a pause or a
reconciliation, so the number of rounds is bounded by the limits. -/
def performLoop (timing : Timing τ) (limits : Limits) (early : List (Option τ))
    (s : ScheduleState τ (Script τ)) : Except (Fault τ) Unit × ScheduleState τ (Script τ) :=
  let bounded := { s with outside := { s.outside with limits := some limits, early := early } }
  let (result, s) :=
    perform timing (rounds timing (max 1 limits.pauses + max 1 limits.runs + 1)) bounded
  (result, { s with outside := { s.outside with limits := none, early := [] } })

end Script

end SecretMirror.Resync
