import SecretMirror.Cache
import SecretMirror.Log
import SecretMirror.Metrics
import SecretMirror.Program
import SecretMirror.Resync.Loop
import SecretMirror.Secret.Wire

/-!
# What the operator does to the world

All that the operator asks of its surroundings, one request for each thing that happens without
interruption: a reading of the clock, an operation on the cache, a call of the API, a change of the
metrics, a log line, an event, a step on the schedule.  The programs of the operator are programs
over these requests, so whatever can happen between two of its steps can be described by what
happens between two requests.
-/

namespace SecretMirror.Operator

variable {τ : Type}

/-- A Kubernetes event about an object (`emit_event`). -/
structure Event where
  /-- The object, or a reference to it. -/
  object : Value
  /-- The reason, usually a text. -/
  reason : Value
  /-- The message, usually a text. -/
  message : Value
  /-- The type, usually a text. -/
  type : Value := .text "Normal"

/-- What the operator asks of its surroundings.  Each request happens without interruption, and any
of them may be answered by a fault. -/
inductive Request (τ : Type) where
  /-- The reading of the clock. -/
  | now
  /-- To wait for a time. -/
  | sleep (time : τ)
  /-- When the last call of the API began. -/
  | lastCall
  /-- To record when a call of the API begins. -/
  | recordCall (time : τ)
  /-- The cached secret under a key. -/
  | cacheGet (key : Key)
  /-- To cache a secret under its own key. -/
  | cachePut (secret : Secret)
  /-- To drop the cached secret with a namespace and a name. -/
  | cacheForget (space name : Value)
  /-- To read a secret through the API. -/
  | read (space name : Value)
  /-- To create a secret in a namespace through the API. -/
  | create (space : Value) (body : WireSecret)
  /-- To replace the secret with a namespace and a name through the API. -/
  | replace (space name : Value) (body : WireSecret)
  /-- To configure the API client from inside the cluster. -/
  | clusterConfig
  /-- To configure the API client from a configuration file. -/
  | fileConfig
  /-- To change the metrics. -/
  | measure (update : Metrics.Update τ)
  /-- To write a log line. -/
  | log (line : Log.Line)
  /-- To post an event. -/
  | post (event : Event)
  /-- A step on the schedule of resyncs. -/
  | schedule (step : Resync.Step τ)

/-- The requests of the operator.  A write answers with the stored secret, or with nothing if the
response was no secret. -/
abbrev requests (τ : Type) : Signature where
  Request := Request τ
  Answer
    | .now => τ
    | .sleep _ => Unit
    | .lastCall => τ
    | .recordCall _ => Unit
    | .cacheGet _ => Option Secret
    | .cachePut _ => Unit
    | .cacheForget .. => Unit
    | .read .. => WireSecret
    | .create .. => Option WireSecret
    | .replace .. => Option WireSecret
    | .clusterConfig => Unit
    | .fileConfig => Unit
    | .measure _ => Unit
    | .log _ => Unit
    | .post _ => Unit
    | .schedule step => step.Answer

/-- A program of the operator, which may end with a fault. -/
abbrev Task (τ α : Type) := Program (requests τ) (Fault τ) α

def ask (q : (requests τ).Request) : Task τ ((requests τ).Answer q) := Program.request q

/-- A computation that may find a value malformed, which is a fault then.  It asks nothing. -/
def checked {α : Type} (r : Except Malformed α) : Task τ α := .ofExcept (r.mapError .malformed)

def now : Task τ τ := ask .now

def count [Time τ] (s : Series) : Task τ Unit := ask (.measure (.add s 1))

/-- Feeds a series the time since `start`.  The clock is read once more for this, at the end of what
is measured. -/
def measureSince [Time τ] (start : τ) (s : Series) : Task τ Unit := do
  let stop ← now
  ask (.measure (.add s (stop - start)))

end SecretMirror.Operator
