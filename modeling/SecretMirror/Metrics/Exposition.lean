import SecretMirror.Metrics
import SecretMirror.Number.Written

/-!
# Exposition of metrics

The text that a scrape reads: for every metric its help and its type, then a line for every sample.
Label values are quoted, with backslash, quote and line feed escaped.
-/

namespace SecretMirror.Metrics

def escapeLabel (s : String) : List Char :=
  s.toList.flatMap fun c =>
    if c = '\\' then ['\\', '\\']
    else if c = '\x22' then ['\\', '\x22']
    else if c = '\n' then ['\\', 'n']
    else [c]

/-- A label with its value, in which backslashes, quotes and line feeds are escaped. -/
def labelText (label : String × String) : List Char :=
  label.1.toList ++ '=' :: '\x22' :: escapeLabel label.2 ++ ['\x22']

def sampleLine (s : Sample Float) : String :=
  let labels := (s.labels.map labelText).intersperse [',']
  String.ofList (s.name.toList ++ '\x7b' :: labels.flatten ++ '\x7d' :: ' ' ::
    Binary64.exposed ⟨s.value.toBits⟩)

def metricLines (record : List (Update Float)) (m : Metric) : List String :=
  let type := if m.isHistogram then "histogram" else "counter"
  ["# HELP " ++ m.name ++ " " ++ m.help, "# TYPE " ++ m.name ++ " " ++ type] ++
    (samples record m).map sampleLine

/-- The lines of all metrics. -/
def exposition (record : List (Update Float)) : List String :=
  Metric.all.flatMap (metricLines record)

end SecretMirror.Metrics
