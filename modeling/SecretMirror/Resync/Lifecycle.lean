import SecretMirror.Number.Written
import SecretMirror.Log

/-!
# Starting and stopping the loop

The loop runs in a thread of its own.  A start does nothing while the thread that was started last
is alive; otherwise it clears the flag by which loops are stopped and starts a thread.  A stop sets
the flag, waits for the thread for a limited time, and lets go of it whether it has ended or not.

A `Lifecycle` holds the flag, all threads that were ever started with the place where each stands in
its loop, and which of them is held on to.  What a thread does by itself is one `advance`, so that
starts and stops can come between any two steps of any thread.
-/

namespace SecretMirror.Resync

/-- Where a thread stands in its loop.  An ended one never ticks again. -/
inductive Phase where
  /-- It is about to look at the flag. -/
  | looking
  /-- It is in a tick, perhaps in a reconciliation. -/
  | ticking
  /-- It waits for the next run. -/
  | pausing
  /-- It has left the loop. -/
  | ended
  deriving DecidableEq, Repr

/-- Whether a thread may still tick. -/
def Phase.isAlive : Phase → Bool
  | .ended => false
  | _ => true

/-- The next phase of a thread, given the flag.  `pauses` says whether a tick that ends found
nothing to do.  The flag matters in one phase only, at the head of the loop. -/
def Phase.next (stopped pauses : Bool) : Phase → Phase
  | .looking => if stopped then .ended else .ticking
  | .ticking => if pauses then .pausing else .looking
  | .pausing => .looking
  | .ended => .ended

/-- The threads that were started to run the loop, the one that is held on to, and the one flag that
is common to all of them. -/
structure Lifecycle where
  /-- All threads, in the order of their start. -/
  threads : List Phase := []
  /-- The thread that is held on to. -/
  current : Option Nat := none
  /-- Whether loops have to stop. -/
  stopped : Bool := false
  deriving DecidableEq, Repr

namespace Lifecycle

/-- The phase of a thread; one that was never started counts as ended. -/
def phase (l : Lifecycle) (thread : Nat) : Phase := l.threads[thread]?.getD .ended

/-- Whether there is a thread that is held on to and alive. -/
def isRunning (l : Lifecycle) : Bool :=
  match l.current with
  | some thread => (l.phase thread).isAlive
  | none => false

/-- Starts a thread, unless one is running (`start`).  The flag is cleared for all threads, so also
for one that was let go of and has not seen it yet. -/
def start (l : Lifecycle) : Lifecycle :=
  if l.isRunning then l
  else {
    threads := l.threads ++ [.looking]
    current := some l.threads.length
    stopped := false }

/-- The first part of a stop: the flag is set, by which the thread is told to end. -/
def requestStop (l : Lifecycle) : Lifecycle := { l with stopped := true }

/-- The last part of a stop: the thread is let go of, alive or not, since a stop waits for it for a
limited time only. -/
def release (l : Lifecycle) : Lifecycle := { l with current := none }

/-- A thread takes its next step. -/
def advance (l : Lifecycle) (thread : Nat) (pauses : Bool) : Lifecycle :=
  { l with threads := l.threads.modify thread (Phase.next l.stopped pauses) }

/-- The thread that is held on to takes its next step. -/
def advanceCurrent (l : Lifecycle) (pauses : Bool) : Lifecycle :=
  match l.current with
  | some thread => l.advance thread pauses
  | none => l

def startSettled (l : Lifecycle) : Lifecycle :=
  if l.isRunning then l else (l.start.advanceCurrent true).advanceCurrent true

/-- A stop that the thread obeys at once: it leaves its pause or its tick, sees the flag and ends
before it is let go of. -/
def stopSettled (l : Lifecycle) : Lifecycle :=
  ((l.requestStop.advanceCurrent false).advanceCurrent false).release

def threadName : String := "encryption-config-resync"

def isDaemon : Bool := true

/-- The line that is logged when a thread is started. -/
def startLine (interval : Binary64) : Log.Line :=
  ⟨Log.infoLevel, "Started resync every " ++ String.ofList interval.written ++ "s"⟩

/-- The two calls that can be made from outside, `start` and `stop`. -/
inductive Call where
  | start | stop
  deriving DecidableEq, Repr

def Call.name : Call → String
  | .start => "start"
  | .stop => "stop"

/-- What is called when the operator starts (`start_resync`). -/
def atStart : List Call := [.start]

/-- What is called when the operator ends (`stop_resync`). -/
def atEnd : List Call := [.stop]

/-- Carries out a call, with a thread that goes on at once.  This is how calls from outside are
tried. -/
def settled (l : Lifecycle) : Call → Lifecycle
  | .start => l.startSettled
  | .stop => l.stopSettled

/-- What a call logs: a start that finds a thread running logs nothing. -/
def linesOf (l : Lifecycle) (interval : Binary64) : Call → List Log.Line
  | .start => if l.isRunning then [] else [startLine interval]
  | .stop => []

end Lifecycle

end SecretMirror.Resync
