import SecretMirror.Settings

/-!
# Starting the operator

When the operator starts, log lines are set up first, then the limits of the framework that runs it,
and last the server for metrics and health checks.  A setting that cannot be used ends the start
where it is needed; what was done before stays done.

Log lines are set up once: where a handler exists already nothing changes.  The handler is in place
before the level is looked at, so a level that is unknown leaves the old one, and a later start
leaves everything.
-/

namespace SecretMirror

/-- How log lines are written. -/
structure Logging where
  /-- The level below which no line is written. -/
  threshold : Int := 30
  /-- How many handlers write lines. -/
  handlers : Nat := 0
  deriving DecidableEq, Repr

namespace Startup

/-- Sets up log lines (`setup_structured_logging`), unless that was done before.  The handler is in
place before the level is read, so after an unknown level nothing is set up again. -/
def setUpLogging (env : Environment) (l : Logging) : Except Settings.Unusable Unit × Logging :=
  if l.handlers ≠ 0 then (.ok (), l)
  else
    match Settings.logThreshold env with
    | .ok level => (.ok (), ⟨level, 1⟩)
    | .error e => (.error e, { l with handlers := 1 })

/-- The limits within which the framework runs the operator. -/
structure Limits where
  /-- The level below which nothing becomes a Kubernetes event. -/
  postingLevel : Int := 30
  /-- The time that a request to the API may take, in seconds. -/
  requestSeconds : Nat := 30
  /-- How many handlers may run at once. -/
  workers : Nat := 4
  deriving DecidableEq, Repr

/-- Where metrics and health checks are served. -/
structure Listener where
  /-- The address; an empty one stands for every address of the host. -/
  host : String := ""
  /-- The TCP port. -/
  tcpPort : Int
  /-- Whether requests are served at the same time. -/
  threaded : Bool := true
  deriving DecidableEq, Repr

/-- How far a start has come. -/
structure Started where
  /-- The result of the start. -/
  result : Except Settings.Unusable Unit
  /-- The limits, if they were set. -/
  limits : Option Limits := none
  /-- The server, if it was started. -/
  listener : Option Listener := none
  /-- How log lines are written from now on. -/
  logging : Logging

/-- Starts the operator (`configure`): log lines first, then the limits, and last the server for
metrics and health checks (`start_health_server`).  What cannot be used ends the start where it is
needed. -/
def start (env : Environment) (l : Logging) : Started :=
  match setUpLogging env l with
  | (.error e, l) => { result := .error e, logging := l }
  | (.ok (), l) =>
    match Settings.metricsPort env with
    | .error e => { result := .error e, limits := some {}, logging := l }
    | .ok tcpPort =>
      { result := .ok (), limits := some {}, listener := some { tcpPort := tcpPort }, logging := l }

end Startup

end SecretMirror
