import SecretMirror.Text.Digit

/-!
# Health checks

Two paths answer that the operator is healthy and ready; every other request goes to the metrics.
The operator is ready as soon as it is able to answer.  A request for the headers alone gets those
of the full answer.
-/

namespace SecretMirror.Health

structure Response where
  status : String
  headers : List (String × String)
  body : String
  deriving DecidableEq, Repr

/-- What a health check reports; nothing if the path is that of no health check. -/
def report? (path : String) : Option String :=
  if path = "/healthz" then some "ok"
  else if path = "/readyz" then some "ready"
  else none

def document (report : String) : String :=
  String.ofList ("\x7b\x22status\x22:\x22".toList ++ report.toList ++ "\x22\x7d".toList)

/-- The answer to a health check.  A request for the headers alone gets those of the full answer. -/
def answer (method report : String) : Response where
  status := "200 OK"
  headers := [("Content-Type", "application/json"),
    ("Content-Length", String.ofList (Text.digits (document report).utf8ByteSize))]
  body := if method = "HEAD" then "" else document report

/-- The answer to a request, given the one that the metrics would give (`create_combined_wsgi_app`).
A request may lack a path. -/
def respond (metrics : Response) (method : String) (path? : Option String) : Response :=
  match path?.bind report? with
  | some report => answer method report
  | none => metrics

end SecretMirror.Health
