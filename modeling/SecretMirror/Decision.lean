import SecretMirror.Names
import SecretMirror.Secret

/-!
# What to do with the mirror

The canonical secret is owned by other controllers, and the mirror is a copy of its data under
another name.  `decide` compares the two.  Its rules are tried in order: without a canonical secret
encryption is off and nothing is done; without a mirror one is created; a mirror without this
operator's marker belongs to someone else and is left alone; a mirror with the same data is left
alone; any other mirror gets the data of the canonical secret and keeps everything else.

* `Secret.isManaged` is the test for the operator's marker.
* `Secret.mirror` is the mirror to create for a canonical secret.
* `Decision` carries the secret to write exactly if one is to be written.
-/

namespace SecretMirror

/-- Whether a secret carries this operator's marker (`is_managed_by_operator`).  Annotations that
are not an object, plain or a view, carry none, so a secret with unreadable annotations counts as
somebody else's. -/
def Secret.isManaged (s : Secret) : Bool :=
  match s.annotations.fields? with
  | some annotations => ((annotations.get? Names.managedBy).bind Value.text?) == some Names.manager
  | none => false

/-- The description of a secret, if its annotations have one.  It may be a value of any shape, null
included. -/
def Secret.description? (s : Secret) : Option Value :=
  s.annotations.fields?.bind fun annotations => annotations.get? Names.description

/-- The annotations of a mirror: the operator's marker, and the description of the source if it has
one.  No other annotation of the source is taken over. -/
def mirrorAnnotations (description? : Option Value) : List (String × Value) :=
  (Names.managedBy, .text Names.manager) ::
    match description? with
    | some description => [(Names.description, description)]
    | none => []

/-- The data section of a source, which has to be there to be copied.  An empty one is there. -/
def Secret.sourceData (source : Secret) : Except Malformed Data :=
  match source.data with
  | some data => .ok data
  | none => .error (.notIterable .null)

/-- The mirror of a source under a given name (`create_mirror_secret_from_source`): its data and
description in its namespace, with the operator's marker and finalizer, and nothing else. -/
def Secret.mirror (source : Secret) (name : Value := .text Names.target) :
    Except Malformed Secret := do
  let data ← source.sourceData
  return {
    name := name
    space := source.space
    data := some data
    annotations := .object (mirrorAnnotations source.description?)
    finalizers := .list [.text Names.finalizer] }

/-- A mirror can be made just if the source has data, and then it is made of the data, the namespace
and the description alone. -/
theorem Secret.mirror_eq_ok_iff {s r : Secret} {name : Value} :
    s.mirror name = .ok r ↔ ∃ data, s.data = some data ∧
      r = {
        name := name, space := s.space, data := some data
        annotations := .object (mirrorAnnotations s.description?)
        finalizers := .list [.text Names.finalizer] } := by
  unfold mirror sourceData
  cases s.data with
  | none => simp [bind, Except.bind]
  | some data => simp [bind, Except.bind, pure, Except.pure, eq_comm]

theorem Secret.isManaged_of_mirror {s r : Secret} {name : Value} (h : s.mirror name = .ok r) :
    r.isManaged = true := by
  obtain ⟨data, -, rfl⟩ := mirror_eq_ok_iff.1 h
  simp [isManaged, Value.fields?, mirrorAnnotations, Fields.get?_cons, Value.text?]

theorem Secret.data_of_mirror {s r : Secret} {name : Value} (h : s.mirror name = .ok r) :
    r.data = s.data := by
  obtain ⟨data, hdata, rfl⟩ := mirror_eq_ok_iff.1 h
  exact hdata.symm

inductive Action where
  | noOp | create | update
  deriving DecidableEq, Repr

def Action.name : Action → String
  | .noOp => "NoOp"
  | .create => "Create"
  | .update => "Update"

/-- Why nothing is to be done. -/
inductive NoOpReason where
  /-- There is no canonical secret: encryption is off. -/
  | sourceAbsent
  /-- The mirror belongs to someone else. -/
  | foreign
  /-- The mirror has the data of the canonical secret. -/
  | inSync
  deriving DecidableEq, Repr

/-- What to do with the mirror (`SyncDecision`).  The secret to write is part of the decision, so
there is one exactly if something is to be written. -/
inductive Decision where
  /-- Nothing. -/
  | noOp (why : NoOpReason)
  /-- Create this secret, since there is no mirror. -/
  | create (secret : Secret)
  /-- Replace the mirror by this secret, since its data differ. -/
  | update (secret : Secret)

namespace Decision

def action : Decision → Action
  | .noOp _ => .noOp
  | .create _ => .create
  | .update _ => .update

/-- The reason of a decision in reports (`SyncDecision.reason`).  It is determined by the rule that
was applied. -/
def reason : Decision → String
  | .noOp .sourceAbsent => "SourceAbsent"
  | .noOp .foreign => "ForeignSecret"
  | .noOp .inSync => "InSync"
  | .create _ => "TargetAbsent"
  | .update _ => "DataDrift"

def secret? : Decision → Option Secret
  | .noOp _ => none
  | .create s => some s
  | .update s => some s

end Decision

/-- What to do about a canonical secret and its mirror, either of which may be missing (`decide`).
The rules are tried in order and the first that applies counts.  A mirror that has to be created is
given `targetName`. -/
def decide (source target : Option Secret) (targetName : Value := .text Names.target) :
    Except Malformed Decision :=
  match source, target with
  | none, _ => .ok (.noOp .sourceAbsent)
  | some source, none => (source.mirror targetName).map .create
  | some source, some target =>
    if !target.isManaged then .ok (.noOp .foreign)
    else if Data.equal target.data source.data then .ok (.noOp .inSync)
    else do
      let data ← source.sourceData
      return .update { target with data := some data }

end SecretMirror
