import SecretMirror.Operator.Effects
import SecretMirror.RateLimit

/-!
# Access to secrets through the API

Look-ups go through the cache: a cached secret that is not too old is taken as it is, any other is
read through the API and cached if it exists.  That a secret does not exist is never remembered.
Writes go to the API directly; afterwards the cache holds what was stored, or nothing under that key
if the write failed.

All calls of the API are spaced, counted by their result, and timed.

* `spaced` makes a call wait its turn.
* `lookUp` reads, `create` and `update` write.  An update replaces the whole object and carries the
  version that was read, so it fails if the object has changed since; a create carries no version.
-/

namespace SecretMirror.Operator

variable {τ : Type} [Time τ]

/-- Takes a turn for a call of the API: it waits until the call is far enough from the previous one
and records when the call starts.  The clock is read again after the wait, since a wait may take
longer than was asked for. -/
def takeTurn (rate : τ) : Task τ Unit := do
  let spacing ← Program.ofExcept (RateLimit.spacing rate)
  let time ← now
  let last ← ask .lastCall
  match RateLimit.wait? spacing time last with
  | some wait => ask (.sleep wait)
  | none => pure ()
  let start ← now
  ask (.recordCall start)

/-- A call of the API that is made when it has had its turn (`rate_limit_k8s`).  A rate of zero is a
fault, and then the call is not made. -/
def spaced {α : Type} (rate : τ) (call : Task τ α) : Task τ α := do
  takeTurn rate
  call

/-- What a failed read means: that there is no secret, if the API says so, and a fault otherwise.  A
read that fails otherwise than by an answer of the API is not counted. -/
def readFailure (fault : Fault τ) : Task τ (Option WireSecret) := do
  if fault.isApi then
    if fault.statusOf.isNumber 404 then
      count (.apiCalls "get_secret" "not_found")
      return none
    else
      count (.apiCalls "get_secret" "error")
      Program.fail fault
  else Program.fail fault

/-- Reads a secret through the API, whatever the cache holds.  The time is measured in any case,
after the result has been counted if it was a failure. -/
def readThrough (rate : τ) (space name : Value) : Task τ (Option WireSecret) := do
  let start ← now
  ((spaced rate (ask (.read space name)) >>= fun raw => pure (some raw)).recover readFailure).always
    (measureSince start (.apiCallTime "get_secret"))

/-- What a look-up does with what it has read: the call is counted as a success, and the secret that
the record reads as is cached.  A record that cannot be read is a fault, which comes after the count
and leaves the cache as it is. -/
def takeIn (raw : WireSecret) : Task τ (Option Secret) := do
  count (.apiCalls "get_secret" "success")
  let secret ← checked (Secret.ofWire raw)
  ask (.cachePut secret)
  return some secret

/-- The secret with a namespace and a name, if there is one (`KubernetesSecretLister.get`).  A
cached copy that is not too old is handed out without a call of the API. -/
def lookUp (rate : τ) (space name : Value) : Task τ (Option Secret) := do
  let key ← checked (Key.ofValues space name)
  match ← ask (.cacheGet key) with
  | some secret =>
    count (.apiCalls "get_secret" "cache_hit")
    return some secret
  | none =>
    match ← readThrough rate space name with
    | none => return none
    | some raw => takeIn raw

inductive Operation where
  | create | update
  deriving DecidableEq, Repr

/-- The name of an operation in `secret_operations_total`. -/
def Operation.name : Operation → String
  | .create => "create"
  | .update => "update"

/-- The name of an operation in `api_call_total`. -/
def Operation.callName : Operation → String
  | .create => "create_secret"
  | .update => "update_secret"

/-- What follows a failed write: it is counted, and nothing stays cached under its key, since the
API may have stored the secret all the same. -/
def writeFailure (operation : Operation) (secret : Secret) (fault : Fault τ) :
    Task τ (Option WireSecret) := do
  count (.apiCalls operation.callName "error")
  count (.writes operation.name "error")
  ask (.cacheForget secret.space secret.name)
  Program.fail fault

/-- What follows a write that was answered: it is counted twice, as a call and as a write, and what
was stored is cached.  If the answer is no secret, the secret as sent counts as stored. -/
def concludeWrite (operation : Operation) (secret : Secret) (raw : Option WireSecret) :
    Task τ Secret := do
  count (.apiCalls operation.callName "success")
  count (.writes operation.name "success")
  let stored ← match raw with
    | some raw => checked (Secret.ofWire raw)
    | none => pure secret
  ask (.cachePut stored)
  return stored

/-- Writes a secret by a call of the API (`_write`).  The time of the call is measured whether it
succeeds or fails: after a failure has been counted, and before a success is. -/
def write (rate : τ) (operation : Operation) (secret : Secret)
    (call : Task τ (Option WireSecret)) : Task τ Secret := do
  let start ← now
  let raw ← ((spaced rate call).recover (writeFailure operation secret)).always
    (measureSince start (.apiCallTime operation.callName))
  concludeWrite operation secret raw

def WireSecret.unversioned (w : WireSecret) : WireSecret :=
  { w with metadata := { w.metadata with resourceVersion := .null } }

/-- Creates a secret (`create`).  The record is made before the call is counted as one, so a secret
that cannot be sent leaves no trace in the metrics. -/
def create (rate : τ) (secret : Secret) : Task τ Secret := do
  let body ← checked secret.toWire
  write rate .create secret (ask (.create secret.space (WireSecret.unversioned body)))

/-- Replaces a secret (`update`).  The record is made when the call has had its turn, so a secret
that cannot be sent counts as a failed call. -/
def update (rate : τ) (secret : Secret) : Task τ Secret :=
  write rate .update secret do
    let body ← checked secret.toWire
    ask (.replace secret.space secret.name body)

end SecretMirror.Operator
