import SecretMirror.Fields
import SecretMirror.Log
import SecretMirror.Number.Reading
import SecretMirror.Text.Capital

/-!
# Settings

What can be set from the environment.  A variable that is not set has a default; one that is set to
something unusable is an error that says so, and the first one in order decides.

* `Settings.cacheTtl` and `Settings.callRate` are one number each.
* `Settings.delays` are the interval of resyncs and the two delays before a retry.
* `Settings.logThreshold` is the level below which no log line is written.
* `Settings.metricsPort` is where metrics and health checks are served.
-/

namespace SecretMirror

abbrev Environment := Fields String

namespace Settings

/-- Why a setting cannot be used, with the text that it was given as. -/
inductive Unusable where
  /-- It is no number. -/
  | notANumber (text : String)
  /-- It is no whole number. -/
  | notWhole (text : String)
  /-- It has too many digits for a whole number. -/
  | tooLong (digits : Nat)
  /-- It is no level of log lines. -/
  | unknownLevel (name : String)
  deriving DecidableEq, Repr

def Unusable.typeName : Unusable → String
  | .notANumber _ => "ValueError"
  | .notWhole _ => "ValueError"
  | .tooLong _ => "ValueError"
  | .unknownLevel _ => "ValueError"

/-- How many characters of a quoted text the report of a missing whole number shows. -/
def quotedWidth : Nat := 200

/-- The text with which an unusable setting is reported. -/
def Unusable.message : Unusable → String
  | .notANumber text =>
    "could not convert string to float: " ++ String.ofList (Text.quoted text.toList)
  | .notWhole text =>
    "invalid literal for int() with base 10: " ++
      String.ofList ((Text.quoted text.toList).take quotedWidth)
  | .tooLong digits =>
    s!"Exceeds the limit ({Text.digitLimit} digits) for integer string conversion: " ++
      s!"value has {digits} digits; use sys.set_int_max_str_digits() to increase the limit"
  | .unknownLevel name => "Unknown level: " ++ String.ofList (Text.quoted name.toList)

/-! ## Numbers -/

/-- The double that a variable is set to; `preset` is its default, which is read like a setting. -/
def number (env : Environment) (name preset : String) : Except Unusable Binary64 :=
  let text := (env.get? name).getD preset
  match Number.readDouble? text with
  | some x => .ok x
  | none => .error (.notANumber text)

/-- For how many seconds a cached secret is handed out, `K8S_CACHE_TTL_SECONDS`. -/
def cacheTtl (env : Environment) : Except Unusable Binary64 :=
  number env "K8S_CACHE_TTL_SECONDS" "30.0"

/-- How many calls of the API are made a second at most, `K8S_RATE_LIMIT_PER_SECOND`. -/
def callRate (env : Environment) : Except Unusable Binary64 :=
  number env "K8S_RATE_LIMIT_PER_SECOND" "10.0"

/-- How often to reconcile, and how soon to try again. -/
structure Delays where
  /-- The time between two resyncs. -/
  interval : Binary64
  /-- The time before a retry after a conflict. -/
  conflict : Binary64
  /-- The time before a retry after any other failure. -/
  error : Binary64

/-- The delays that are set.  They are read in this order, so the first one that cannot be used is
reported. -/
def delays (env : Environment) : Except Unusable Delays := do
  let interval ← number env "RESYNC_INTERVAL_SECONDS" "300"
  let conflict ← number env "CONFLICT_RETRY_DELAY_SECONDS" "5"
  let error ← number env "ERROR_RETRY_DELAY_SECONDS" "30"
  return ⟨interval, conflict, error⟩

/-- The TCP port on which metrics and health checks are served, `METRICS_PORT`. -/
def metricsPort (env : Environment) : Except Unusable Int :=
  let text := (env.get? "METRICS_PORT").getD "8080"
  match Number.readWhole text with
  | .ok n => .ok n
  | .error .notWhole => .error (.notWhole text)
  | .error (.tooLong digits) => .error (.tooLong digits)

/-! ## Levels -/

/-- The names of the levels, some of which have two. -/
def levels : Fields Int :=
  [("CRITICAL", 50), ("FATAL", 50), ("ERROR", Log.errorLevel), ("WARNING", 30), ("WARN", 30),
    ("INFO", Log.infoLevel), ("DEBUG", 10), ("NOTSET", 0)]

/-- The level below which no log line is written, `LOG_LEVEL`.  Its name may be written in any
mixture of cases. -/
def logThreshold (env : Environment) : Except Unusable Int :=
  let name := Text.capitals ((env.get? "LOG_LEVEL").getD "INFO")
  match levels.get? name with
  | some level => .ok level
  | none => .error (.unknownLevel name)

end Settings

end SecretMirror
