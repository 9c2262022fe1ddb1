import SecretMirror.Time
import SecretMirror.Fields

/-!
# Metrics

The operator counts reconciliations, writes, API calls and errors, and measures how long
reconciliations and API calls take.  What is kept is the record of all updates in order; totals are
read off it.

* A `Metric` has a name, a help text and the names of its labels; a `Series` is a metric with a
  value for every label.
* An `Update` registers a series or adds an amount to it.
* `total` is what a counter shows, `observations` how often a histogram was fed.
* `samples` are the numbers that a scrape sees.
-/

namespace SecretMirror

inductive Metric where
  | reconciliations | reconciliationTime | writes | apiCalls | apiCallTime | errors
  deriving DecidableEq, Repr

namespace Metric

/-- All metrics, in the order in which they are exposed, which is that of their definition. -/
def all : List Metric :=
  [.reconciliations, .reconciliationTime, .writes, .apiCalls, .apiCallTime, .errors]

def shortName : Metric → String
  | .reconciliations => "reconcile_total"
  | .reconciliationTime => "reconcile_duration_seconds"
  | .writes => "secret_operations_total"
  | .apiCalls => "api_call_total"
  | .apiCallTime => "api_call_duration_seconds"
  | .errors => "error_total"

def name (m : Metric) : String := "oauth_encryption_operator_" ++ m.shortName

def help : Metric → String
  | .reconciliations => "Total number of reconciliations"
  | .reconciliationTime => "Duration of reconciliations in seconds"
  | .writes => "Total number of writes to the mirror secret"
  | .apiCalls => "Total number of API calls"
  | .apiCallTime => "Duration of API calls in seconds"
  | .errors => "Total number of reconciliation errors"

/-- The names of the labels, in the order in which a series gives their values. -/
def labelNames : Metric → List String
  | .reconciliations => ["trigger", "result"]
  | .reconciliationTime => ["trigger"]
  | .writes => ["operation", "result"]
  | .apiCalls => ["api_type", "operation", "result"]
  | .apiCallTime => ["api_type", "operation"]
  | .errors => ["error_type"]

/-- Whether a metric is a histogram; the others are counters. -/
def isHistogram : Metric → Bool
  | .reconciliationTime => true
  | .apiCallTime => true
  | _ => false

end Metric

/-- A metric with a value for each of its labels. -/
structure Series where
  metric : Metric
  labels : List String
  deriving DecidableEq, Repr

namespace Series

/-- Reconciliations with a trigger and a result (`reconcile_total`). -/
def reconciliations (trigger result : String) : Series := ⟨.reconciliations, [trigger, result]⟩

/-- The time that reconciliations with a trigger take (`reconcile_duration_seconds`). -/
def reconciliationTime (trigger : String) : Series := ⟨.reconciliationTime, [trigger]⟩

/-- Writes by an operation with a result (`secret_operations_total`). -/
def writes (operation result : String) : Series := ⟨.writes, [operation, result]⟩

/-- Calls of the API by an operation with a result (`api_call_total`). -/
def apiCalls (operation result : String) : Series := ⟨.apiCalls, ["k8s", operation, result]⟩

/-- The time that calls of the API by an operation take (`api_call_duration_seconds`). -/
def apiCallTime (operation : String) : Series := ⟨.apiCallTime, ["k8s", operation]⟩

/-- Errors of a class (`error_total`). -/
def errors (typeName : String) : Series := ⟨.errors, [typeName]⟩

end Series

namespace Metrics

/-- A change to the metrics.  What is kept is the list of all changes, and totals are read off it,
so nothing that was counted can be lost or counted twice by a total. -/
inductive Update (τ : Type) where
  /-- A series becomes known, without a change of its numbers. -/
  | register (series : Series)
  /-- A counter grows by an amount, or a histogram is fed an amount. -/
  | add (series : Series) (amount : τ)

namespace Update

variable {τ : Type}

def series : Update τ → Series
  | .register s => s
  | .add s _ => s

def amountFor? (s : Series) : Update τ → Option τ
  | .register _ => none
  | .add t amount => if t = s then some amount else none

end Update

variable {τ : Type}

/-- The amounts that were added to a series, in order.  Registering a series adds none. -/
def amounts (record : List (Update τ)) (s : Series) : List τ :=
  record.filterMap (Update.amountFor? s)

/-- How often an amount was added to a series. -/
def observations (record : List (Update τ)) (s : Series) : Nat := (amounts record s).length

/-- The sum of the amounts that were added to a series, added up in their order, as the rounding of
doubles depends on it. -/
def total [Time τ] (record : List (Update τ)) (s : Series) : τ :=
  (amounts record s).foldl (· + ·) 0

/-- The known series of a metric, in the order of their first use. -/
def knownSeries (m : Metric) (record : List (Update τ)) : List Series :=
  (record.map Update.series).foldl
    (fun known s => if s.metric = m && !known.contains s then known ++ [s] else known) []

/-! ## What a scrape sees -/

/-- A number that a scrape sees, with the name and the labels it is shown under. -/
structure Sample (τ : Type) where
  /-- The name of the metric, for a histogram with what the number is about. -/
  name : String
  /-- The labels, in the order of their names. -/
  labels : List (String × String)
  /-- The number. -/
  value : τ

/-- The upper bounds of the buckets of a histogram, as they are shown.  The last bucket has none. -/
def bounds [Time τ] : List (String × Option τ) :=
  [("0.01", some 0.01), ("0.05", some 0.05), ("0.1", some 0.1), ("0.5", some 0.5),
    ("1.0", some 1.0), ("2.5", some 2.5), ("5.0", some 5.0), ("+Inf", none)]

/-- How many amounts are within a bound.  What cannot be compared is within none, not even within
the open one. -/
def within [Time τ] (bound : Option τ) (amounts : List τ) : τ :=
  (amounts.filter fun x => decide (x ≤ bound.getD x)).foldl (fun n _ => n + 1) 0

def sortLabels (labels : List (String × String)) : List (String × String) :=
  labels.mergeSort fun a b => a.1 ≤ b.1

def namedLabels (s : Series) : List (String × String) := s.metric.labelNames.zip s.labels

/-- The samples of one series: the total of a counter, and the buckets, the count and the sum of a
histogram. -/
def seriesSamples [Time τ] (record : List (Update τ)) (s : Series) : List (Sample τ) :=
  let name := s.metric.name
  let labels := namedLabels s
  if s.metric.isHistogram then
    let fed := amounts record s
    (bounds.map fun (shown, bound) =>
      { name := name ++ "_bucket", labels := sortLabels (("le", shown) :: labels),
        value := within bound fed }) ++
    [{ name := name ++ "_count", labels := sortLabels labels, value := within none fed },
      { name := name ++ "_sum", labels := sortLabels labels, value := total record s }]
  else [{ name := name, labels := sortLabels labels, value := total record s }]

def samples [Time τ] (record : List (Update τ)) (m : Metric) : List (Sample τ) :=
  (knownSeries m record).flatMap (seriesSamples record)

/-! ## Updates from outside -/

/-- Why an update from outside is refused. -/
inductive Refusal where
  /-- The given labels are not those of the metric. -/
  | labelNames
  /-- No labels were given. -/
  | labelCount
  /-- A counter cannot shrink. -/
  | negativeAmount
  /-- Only a counter can be incremented. -/
  | notACounter
  /-- Only a histogram can be fed. -/
  | notAHistogram
  deriving DecidableEq, Repr

def Refusal.typeName : Refusal → String
  | .notACounter => "AttributeError"
  | .notAHistogram => "AttributeError"
  | _ => "ValueError"

def Refusal.message : Refusal → String
  | .labelNames => "Incorrect label names"
  | .labelCount => "Incorrect label count"
  | .negativeAmount => "Counters can only be incremented by non-negative amounts."
  | .notACounter => "'Histogram' object has no attribute 'inc'"
  | .notAHistogram => "'Counter' object has no attribute 'observe'"

/-- The series of a metric with named labels, which have to be just those of the metric, in whatever
order. -/
def seriesFor (m : Metric) (labels : Fields String) : Except Refusal Series :=
  if labels.isEmpty then .error .labelCount
  else if labels.length = m.labelNames.length && m.labelNames.all labels.has then
    .ok ⟨m, m.labelNames.map fun name => (labels.get? name).getD ""⟩
  else .error .labelNames

/-- Increments a counter or, if `feed` is set, feeds a histogram.  A series that is named correctly
becomes known even if the update is then refused. -/
def update [Time τ] (record : List (Update τ)) (m : Metric) (labels : Fields String) (feed : Bool)
    (amount : τ) : Except Refusal Unit × List (Update τ) :=
  match seriesFor m labels with
  | .error refusal => (.error refusal, record)
  | .ok series =>
    let known := record ++ [.register series]
    if feed && !m.isHistogram then (.error .notAHistogram, known)
    else if !feed && m.isHistogram then (.error .notACounter, known)
    else if !feed && decide (amount < 0) then (.error .negativeAmount, known)
    else (.ok (), record ++ [.add series amount])

end Metrics

end SecretMirror
