import SecretMirror.Fault
import SecretMirror.Json.Writer
import SecretMirror.Names
import SecretMirror.Redaction

/-!
# Structured log lines

Every log line is one JSON object: the controller, the kind and identity of the object that the line
is about, an event, a reason and a message, and further fields.  Fields that are named like one of
these replace it where it stands; others follow in their order.  A line about a fault also holds the
redacted text of the fault and its class, which no further field can replace.

What a line is made from has names too, and a further field must not have one of them.  The names
are looked for in three rows, of which the first that is met decides the fault: what the caller
gives, what identifies the object, and what writes the line.

* `Log.informLine` and `Log.errorLine` are the two kinds of line.
* `Log.isEnabled` says whether a line of some level is written at all, and `Log.Line.output` what it
  adds to the output.
-/

namespace SecretMirror.Log

def infoLevel : Int := 20

def errorLevel : Int := 40

/-- What identifies the object that a line is about. -/
structure Context where
  name : Value
  space : Value
  uid : Value

/-- The context in the metadata of an object, with stand-ins for what is missing
(`_get_resource_context`).  A null that is given is kept, since only what is missing is filled
in. -/
def Context.ofMetadata (metadata : Value) : Except Malformed Context :=
  match metadata.fields? with
  | none => .error (.noFields metadata.kind "get")
  | some fields => .ok {
      name := (fields.get? "name").getD (.text "unknown")
      space := (fields.get? "namespace").getD (.text "default")
      uid := (fields.get? "uid").getD (.text "unknown") }

/-- The fields that every line has, in their order (`log_resource_event`).  Further fields override
them where they stand. -/
def baseFields (kind : Value) (context : Context) (event reason message : Value) :
    Fields Value :=
  [("controller", .text Names.controller), ("resource", kind), ("name", context.name),
    ("namespace", context.space), ("uid", context.uid), ("event", event), ("reason", reason),
    ("message", message)]

/-- A line: its level and its text, without the line feed at its end.  The text is the JSON document
that the formatter makes of the fields. -/
structure Line where
  level : Int
  text : String
  deriving DecidableEq, Repr

/-- The whole number that a level is given by.  Truth values are whole numbers here. -/
def levelOf? : Value → Option Int
  | .int n => some n
  | .bool b => some (if b then 1 else 0)
  | _ => none

/-- The line with given fields at a given level.  The fields are written before the level is looked
at, so of two reasons against the line that in the fields is the one that counts. -/
def lineOf (level : Value) (fields : Fields Value) : Except Malformed Line :=
  match Json.unwritable? (.object fields) with
  | some reason => .error reason
  | none =>
    match levelOf? level with
    | none => .error .levelNotWhole
    | some level => .ok ⟨level, String.ofList (Json.write (.object fields))⟩

/-! ## Further fields -/

/-- Further fields from names and values of any shape.  Every name has to be a text, or the call
itself is refused. -/
def namedFields (entries : List (Value × Value)) : Except Malformed (Fields Value) :=
  match entries.mapM fun (name, v) => name.text?.map fun name => (name, v) with
  | some named => .ok (Fields.ofList named)
  | none => .error .nameNotText

/-- The fields that are not settings of the line itself. -/
def extraFields (settings : List String) (fields : Fields Value) : Fields Value :=
  fields.filter fun (k, _) => !settings.contains k

/-- What the caller of either kind of line gives beside the further fields.  A further field of one
of these names is refused. -/
def callerNames : List String := ["self", "meta", "message"]

/-- What identifies the object of a line, as the parameters of `log_resource_event`. -/
def identityNames : List String :=
  ["controller", "resource_kind", "resource_name", "namespace", "uid"]

def writerNames : List String := ["logger"]

/-- Refuses fields of which one has a name that is given already; the first such field is
reported. -/
def refuseGiven (place : Clash) (given : List String) (fields : Fields Value) :
    Except Malformed Unit :=
  match fields.names.find? given.contains with
  | some name => .error (.givenTwice place name)
  | none => .ok ()

/-! ## The two kinds of line -/

/-- A line that informs (`log_info`).  Of the further fields, `event` and `reason` replace the
defaults and `level` sets the level. -/
def informLine (kind metadata message : Value) (fields : Fields Value) : Except Malformed Line := do
  refuseGiven .inform callerNames fields
  let context ← Context.ofMetadata metadata
  let event := (fields.get? "event").getD (.text "info")
  let reason := (fields.get? "reason").getD (.text "Info")
  let level := (fields.get? "level").getD (.int infoLevel)
  let extra := extraFields ["event", "reason", "level"] fields
  refuseGiven .identity identityNames extra
  refuseGiven .writer writerNames extra
  lineOf level ((baseFields kind context event reason message).merge extra)

/-- What a line says about what went wrong: the text, redacted, and its class.  These come last and
override a further field of the same name. -/
def causeFields (text typeName : String) : Fields Value :=
  [("error", .text (Redaction.redact text)), ("error_type", .text typeName)]

/-- What a line says about a fault.  Without a fault, a value of any shape may stand for it; it is
shown as in a message, which it cannot be if a number in it has too many digits. -/
def faultFields {τ : Type} (fault? : Option (Fault τ)) (stated : Value) :
    Except Malformed (Fields Value) :=
  match fault?, stated with
  | some fault, _ => .ok (causeFields fault.message fault.typeName)
  | none, .null => .ok []
  | none, other =>
    if other.hasTooLong then .error .tooManyDigits
    else .ok (causeFields other.display other.kind.name)

/-- A line about a fault (`log_error`).  Of the further fields, `event` and `reason` replace the
defaults, and `error` stands for the fault if there is none.  The cause comes last, so no further
field can take its place. -/
def errorLine {τ : Type} (kind metadata message : Value) (fault? : Option (Fault τ))
    (fields : Fields Value) : Except Malformed Line := do
  refuseGiven .report callerNames fields
  let context ← Context.ofMetadata metadata
  let event := (fields.get? "event").getD (.text "error")
  let reason := (fields.get? "reason").getD (.text "Error")
  let cause ← faultFields fault? ((fields.get? "error").getD .null)
  let extra := extraFields ["event", "reason", "error"] fields
  refuseGiven .identity ("level" :: identityNames) extra
  refuseGiven .writer writerNames extra
  lineOf (.int errorLevel)
    ((baseFields kind context event reason message).merge
      (extra.merge cause))

/-- Whether a line of a level is written while lines below `threshold` are not.  Levels that are not
positive are never written. -/
def isEnabled (threshold level : Int) : Bool := 0 < level && threshold ≤ level

/-- What a line adds to the output while lines below `threshold` are not written: the text and one
line feed, or nothing. -/
def Line.output (threshold : Int) (line : Line) : String :=
  if isEnabled threshold line.level then line.text ++ "\n" else ""

end SecretMirror.Log
