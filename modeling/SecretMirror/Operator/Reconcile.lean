import SecretMirror.Operator.Access
import SecretMirror.Sync

/-!
# Reconciling

A reconciliation is one synchronisation against the API, counted, timed and logged.  A fault ends it
and is logged before it is passed on.  Two kinds of API error are passed on as temporary ones that
ask for an early retry: a write that met a newer version of its object, after which neither secret
stays cached, and a request for fewer calls.

The client that the API is called through is configured anew for each reconciliation, from inside
the cluster or else from a file; this happens before anything is counted.

A watch event updates the cache and then runs a reconciliation, which schedules its own retry.
-/

namespace SecretMirror.Operator

variable {τ : Type} [Time τ]

/-- The settings of the operator that concern time. -/
structure Tuning (τ : Type) where
  /-- How many calls of the API are made a second at most. -/
  rate : τ
  /-- How soon a reconciliation is tried again after a conflict. -/
  conflictDelay : τ
  /-- When to reconcile without being asked to. -/
  timing : Resync.Timing τ

/-- Configures the client of the API (`get_k8s_client`): from inside the cluster, or from a file if
the configuration inside the cluster is missing.  Any other fault of the first source is passed on
without a look at the second. -/
def connect : Task τ Unit :=
  (ask .clusterConfig).recover fun fault =>
    match fault with
    | .plain failure message =>
      if failure = .config then ask .fileConfig else Program.fail (.plain failure message)
    | other => Program.fail other

/-- Does what a synchronisation asks for by means of the API, the cache and Kubernetes events
(`build_reconciler`).  All events are about the mirror. -/
def collaborate (rate : τ) (target : Value) :
    (q : Sync.collaborators.Request) → Task τ (Sync.collaborators.Answer q)
  | .lookUp space name => lookUp rate space name
  | .create secret => create rate secret
  | .update secret => update rate secret
  | .emit reason message =>
    ask (.post { object := target, reason := .text reason, message := .text message })

def sync (rate : τ) (places : Sync.Places) : Task τ Decision :=
  (Sync.sync places).interpret (collaborate rate places.targetReference)

/-- The metadata under which reconciliations are logged (`target_meta`).  All lines are about the
mirror. -/
def targetMetadata : Value :=
  .object [("name", .text Names.target), ("namespace", .text Names.configNamespace)]

/-- The result of a reconciliation in the metrics, one for each kind of action. -/
def resultName : Action → String
  | .noOp => "noop"
  | .create => "created"
  | .update => "updated"

/-- Counts and logs a failed reconciliation (`_record_failure`): once as a reconciliation and once
under the class of the fault. -/
def recordFailure (trigger : Value) (fault : Fault τ) : Task τ Unit := do
  count (.reconciliations trigger.display "error")
  count (.errors fault.typeName)
  let line ← checked (Log.errorLine (.text Names.secretKind) targetMetadata
    (.text "Reconciliation failed") (some fault)
    [("event", .text "reconcile_failed"), ("reason", .text "ReconcileFailed"),
      ("trigger", trigger)])
  ask (.log line)

/-- Drops both secrets from the cache, so that the next reconciliation reads what is stored. -/
def forgetBoth (places : Sync.Places) : Task τ Unit := do
  ask (.cacheForget places.space places.source)
  ask (.cacheForget places.space places.target)

/-- Passes a fault on, as a temporary one if it is an API error that asks for an early retry.  After
a conflict the cache may be what was outdated, so both secrets are dropped first. -/
def passOn (delay : τ) (places : Sync.Places) (fault : Fault τ) : Task τ Decision := do
  if fault.isApi && fault.isConflict then
    forgetBoth places
    Program.fail (.temporary s!"Conflict writing {places.targetPath}" (some delay) (some fault))
  else if fault.isApi && fault.isRateLimited then
    Program.fail (.temporary "Kubernetes API rate limit hit" (some delay) (some fault))
  else Program.fail fault

/-- Counts and logs a finished reconciliation, by its action and its reason. -/
def recordSuccess (trigger : Value) (decision : Decision) : Task τ Unit := do
  count (.reconciliations trigger.display (resultName decision.action))
  let line ← checked (Log.informLine (.text Names.secretKind) targetMetadata
    (.text s!"Reconciliation finished: {decision.action.name}")
    [("event", .text "reconciled"), ("reason", .text decision.reason), ("trigger", trigger)])
  ask (.log line)

/-- A reconciliation through a client that is configured already.  The time is measured in any case:
after a failure has been recorded, and before a success is. -/
def reconcileConnected (tuning : Tuning τ) (trigger : Value) : Task τ Decision := do
  let start ← now
  let decision ← ((sync tuning.rate {}).recover fun fault => do
      recordFailure trigger fault
      passOn tuning.conflictDelay {} fault).always
    (measureSince start (.reconciliationTime trigger.display))
  recordSuccess trigger decision
  return decision

/-- A reconciliation, for a reason (`reconcile`).  A client that cannot be configured is a fault
before anything is counted or logged. -/
def reconcile (tuning : Tuning τ) (trigger : Value) : Task τ Decision := do
  connect
  reconcileConnected tuning trigger

/-! ## Around the schedule -/

/-- Does what a program around the schedule asks for: its reconciliations are those of the
operator. -/
def embed (tuning : Tuning τ) :
    (q : (Resync.requests τ).Request) → Task τ ((Resync.requests τ).Answer q)
  | .schedule step => ask (.schedule step)
  | .now => now
  | .pause time => ask (.sleep time)
  | .reconcile trigger => do
    let _ ← reconcile tuning trigger
    return ()

/-- Reconciles once and schedules a retry if that fails. -/
def run (tuning : Tuning τ) (trigger : Value) : Task τ Unit :=
  (Resync.run tuning.timing trigger).interpret (embed tuning)

/-- Runs what is due. -/
def tick (tuning : Tuning τ) : Task τ τ :=
  (Resync.tick tuning.timing).interpret (embed tuning)

def scheduleRetry (tuning : Tuning τ) (delay : τ) : Task τ Unit :=
  (Resync.scheduleRetry delay).interpret (embed tuning)

/-- What a watch event says about a secret: that it is gone, or what it looks like.  A deletion
drops what is cached, and any other event puts what it shows into the cache, whether or not that is
newer. -/
def observe (eventType body name space : Value) : Task τ Unit := do
  if eventType.text? = some "DELETED" then ask (.cacheForget space name)
  else
    let secret ← checked (Secret.ofBody body)
    ask (.cachePut secret)

/-- Handles a watch event about one of the two secrets (`handle_encryption_config_event`).  The
event is taken in before anything is run, so a body that cannot be read is a fault without a run. -/
def handleEvent (tuning : Tuning τ) (eventType body name space : Value) : Task τ Unit := do
  observe eventType body name space
  run tuning (.text "event")

end SecretMirror.Operator
