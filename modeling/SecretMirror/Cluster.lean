import SecretMirror.Cluster.Disturbance
import SecretMirror.Cluster.Server
import SecretMirror.Operator.Reconcile

/-!
# The operator in a cluster

A cluster in which the operator runs alone: one clock that only moves when something takes time, the
cache, the schedule, an API server with its latency and the disturbances that calls meet, and a
record of everything that can be seen from outside.

`Cluster.handle` answers what the operator asks, so `Program.run Cluster.handle` runs any of its
programs in a cluster.
-/

namespace SecretMirror

namespace Cluster

/-- A call of the API, as the server sees it.  The body is there for writes only. -/
structure Call where
  verb : Verb
  space : Value
  name : Value
  /-- What a write sends. -/
  body : Option WireSecret := none

/-- Where the API client is configured from: from inside the cluster, or else from a kubeconfig
(`get_k8s_client`). -/
inductive ClientSource where
  | cluster | file
  deriving DecidableEq, Repr

/-- What could be seen from outside, in order: calls, events, log lines, and the waits and
configurations on the way. -/
structure Record (τ : Type) where
  calls : List Call := []
  events : List Operator.Event := []
  lines : List Log.Line := []
  sleeps : List τ := []
  clientSources : List ClientSource := []

end Cluster

/-- A cluster in which the operator runs alone.  The clock only moves when something takes time, so
a run is determined by the state that it starts from. -/
structure Cluster (τ : Type) where
  /-- The reading of the clock. -/
  clock : τ
  /-- When the last call of the API began. -/
  lastCall : τ
  cache : Cache τ
  schedule : Resync.Schedule τ
  server : Cluster.Server := {}
  /-- How long a call of the API takes. -/
  latency : τ
  disturbances : Cluster.Disturbances τ := fun _ => none
  /-- Whether writes answer with the stored secret. -/
  answersWrites : Bool := true
  /-- The fault that the next event meets when it is posted. -/
  eventFault : Option (Fault τ) := none
  /-- The fault that configuring the client meets, by its source. -/
  clientFaults : Cluster.ClientSource → Option (Fault τ) := fun _ => none
  metrics : List (Metrics.Update τ) := []
  record : Cluster.Record τ := {}

namespace Cluster

variable {τ : Type}

def new [Time τ] (clock ttl : τ) : Cluster τ :=
  { clock := clock, lastCall := 0, cache := { ttl := ttl }, schedule := { lastRun := clock },
    latency := 0 }

def forgetRecord (c : Cluster τ) : Cluster τ := { c with record := {} }

def advance [Add τ] (c : Cluster τ) (time : τ) : Cluster τ := { c with clock := c.clock + time }

/-! ## Calls of the API -/

/-- A call reaches the server: it is recorded, takes its time and may meet a disturbance.  It is
recorded even if it fails then. -/
def meet [Add τ] (c : Cluster τ) (call : Call) : Option (Disturbance τ) × Cluster τ :=
  let (d?, planned) := c.disturbances.meet call.verb call.name
  (d?, { c.advance c.latency with
    disturbances := planned
    record := { c.record with calls := c.record.calls ++ [call] } })

/-- Reads a secret.  The disturbance comes before the look-up, so a disturbed read says nothing
about what is stored. -/
def read [Add τ] (c : Cluster τ) (space name : Value) : Except (Fault τ) WireSecret × Cluster τ :=
  match c.meet { verb := .read, space := space, name := name } with
  | (some d, c) => (.error d.fault, c)
  | (none, c) =>
    match Key.ofValues space name with
    | .error m => (.error (.malformed m), c)
    | .ok key => ((c.server.read key).mapError Refusal.fault, c)

/-- Makes a write take effect under its key, unless the server refuses it or the address makes no
key. -/
def effect (c : Cluster τ) (space name : Value)
    (change : Server → Key → Except Refusal WireSecret × Server) :
    Except (Fault τ) WireSecret × Cluster τ :=
  match Key.ofValues space name with
  | .error m => (.error (.malformed m), c)
  | .ok key =>
    let (result, server) := change c.server key
    (result.mapError Refusal.fault, { c with server := server })

/-- Writes a secret.  A late disturbance comes after the effect, so the write fails although it was
done, and the caller cannot tell this from a write that had no effect. -/
def write [Add τ] (c : Cluster τ) (call : Call)
    (change : Server → Key → Except Refusal WireSecret × Server) :
    Except (Fault τ) (Option WireSecret) × Cluster τ :=
  let (d?, c) := c.meet call
  match d? with
  | some d =>
    if d.isLate then
      let (result, c) := c.effect call.space call.name change
      (result.bind fun _ => .error d.fault, c)
    else (.error d.fault, c)
  | none =>
    let (result, c) := c.effect call.space call.name change
    (result.map fun stored => if c.answersWrites then some stored else none, c)

def create [Add τ] (c : Cluster τ) (space : Value) (body : WireSecret) :
    Except (Fault τ) (Option WireSecret) × Cluster τ :=
  c.write { verb := .create, space := space, name := body.metadata.name, body := some body }
    fun server key => server.create key body

def replace [Add τ] (c : Cluster τ) (space name : Value) (body : WireSecret) :
    Except (Fault τ) (Option WireSecret) × Cluster τ :=
  c.write { verb := .replace, space := space, name := name, body := some body }
    fun server key => server.replace key body

/-! ## What other clients do -/

/-- Another client writes a secret.  A version is given out even if the secret makes no key. -/
def place (c : Cluster τ) (w : WireSecret) : Except (Fault τ) Unit × Cluster τ :=
  match Key.ofValues w.metadata.space w.metadata.name with
  | .error m =>
    (.error (.malformed m), { c with server := { c.server with version := c.server.version + 1 } })
  | .ok key => (.ok (), { c with server := c.server.place key w })

def delete (c : Cluster τ) (space name : Value) : Except (Fault τ) Unit × Cluster τ :=
  match Key.ofValues space name with
  | .error m => (.error (.malformed m), c)
  | .ok key => (.ok (), { c with server := c.server.delete key })

def stored (c : Cluster τ) (space name : Value) : Except (Fault τ) (Option WireSecret) :=
  match Key.ofValues space name with
  | .error m => .error (.malformed m)
  | .ok key => .ok (c.server.objects key)

/-! ## What the operator asks -/

/-- Posts an event, unless it is planned that this fails.  Such a plan is for one event only. -/
def post (c : Cluster τ) (event : Operator.Event) : Except (Fault τ) Unit × Cluster τ :=
  match c.eventFault with
  | some fault => (.error fault, { c with eventFault := none })
  | none => (.ok (), { c with record := { c.record with events := c.record.events ++ [event] } })

/-- Configures the API client from one source.  The attempt is recorded whether it fails or not. -/
def configure (c : Cluster τ) (source : ClientSource) : Except (Fault τ) Unit × Cluster τ :=
  let c' := { c with
    record := { c.record with clientSources := c.record.clientSources ++ [source] } }
  match c.clientFaults source with
  | some fault => (.error fault, c')
  | none => (.ok (), c')

/-- Changes the cache.  An operation that finds no key changes nothing and fails. -/
def changeCache (c : Cluster τ) (change : Except Malformed (Cache τ)) :
    Except (Fault τ) Unit × Cluster τ :=
  match change with
  | .ok cache => (.ok (), { c with cache := cache })
  | .error m => (.error (.malformed m), c)

/-- Answers a request of the operator.  All programs of the operator run in a cluster by this one
function, so what it does is all that the cluster can do to them. -/
def handle [Time τ] (timing : Resync.Timing τ) :
    (q : (Operator.requests τ).Request) → Cluster τ →
      Except (Fault τ) ((Operator.requests τ).Answer q) × Cluster τ
  | .now, c => (.ok c.clock, c)
  | .sleep time, c =>
    (.ok (), { c.advance time with
      record := { c.record with sleeps := c.record.sleeps ++ [time] } })
  | .lastCall, c => (.ok c.lastCall, c)
  | .recordCall time, c => (.ok (), { c with lastCall := time })
  | .cacheGet key, c =>
    let (secret?, cache) := c.cache.get key c.clock
    (.ok secret?, { c with cache := cache })
  | .cachePut secret, c => c.changeCache (c.cache.putOwn secret c.clock)
  | .cacheForget space name, c => c.changeCache (c.cache.forgetValues space name)
  | .read space name, c => c.read space name
  | .create space body, c => c.create space body
  | .replace space name body, c => c.replace space name body
  | .clusterConfig, c => c.configure .cluster
  | .fileConfig, c => c.configure .file
  | .measure update, c => (.ok (), { c with metrics := c.metrics ++ [update] })
  | .log line, c =>
    (.ok (), { c with record := { c.record with lines := c.record.lines ++ [line] } })
  | .post event, c => c.post event
  | .schedule step, c =>
    let (answer, schedule) := step.perform timing c.schedule
    (.ok answer, { c with schedule := schedule })

end Cluster

end SecretMirror
