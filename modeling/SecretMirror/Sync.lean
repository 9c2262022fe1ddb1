import SecretMirror.Decision
import SecretMirror.Program

/-!
# Carrying out the decision

One synchronisation looks up the canonical secret and, if there is one, the mirror, decides what to
do, does it, and emits an event about a write that succeeded.  It is a program over three
collaborators, which look secrets up, write them and emit events; nothing is assumed about them.  A
failure of any of them ends the synchronisation, so an event is emitted only for a write that
succeeded and a failed synchronisation can simply be repeated.
-/

namespace SecretMirror.Sync

/-- What a synchronisation asks its collaborators for: a `SecretLister`, a `SecretWriter` and an
`EventSink`. -/
inductive Request where
  /-- The secret with a namespace and a name, if it exists (`get`). -/
  | lookUp (space name : Value)
  /-- To create a secret.  The answer is the secret as stored. -/
  | create (secret : Secret)
  /-- To replace an existing secret.  The answer is the secret as stored. -/
  | update (secret : Secret)
  /-- To emit an event (`emit`). -/
  | emit (reason message : String)

/-- The collaborators of a synchronisation: the lister, the writer and the event sink.  Any of their
answers may be a fault instead. -/
abbrev collaborators : Signature where
  Request := Request
  Answer
    | .lookUp .. => Option Secret
    | .create _ => Secret
    | .update _ => Secret
    | .emit .. => Unit

variable {τ : Type}

/-- Where the canonical secret and its mirror are.  The defaults are those that the operator
uses. -/
structure Places where
  space : Value := .text Names.configNamespace
  source : Value := .text Names.source
  target : Value := .text Names.target

/-- The mirror as messages name it: its namespace and its name. -/
def Places.targetPath (p : Places) : String := p.space.display ++ "/" ++ p.target.display

/-- The reference to the mirror as the object of events.  The mirror need not exist yet, so its
identity is left out. -/
def Places.targetReference (p : Places) : Value :=
  Secret.reference { name := p.target, space := p.space }

def lookUp (space name : Value) : Program collaborators (Fault τ) (Option Secret) :=
  Program.request (σ := collaborators) (.lookUp space name)

/-- What is decided about a source and a target.  A source without data is a fault where its data is
needed, and only there. -/
def decided (source target : Option Secret) (name : Value) :
    Program collaborators (Fault τ) Decision :=
  .ofExcept ((decide source target name).mapError .malformed)

/-- Does what was decided and, if that was a write, emits an event about it.  What a write answers
is not looked at. -/
def execute (p : Places) : Decision → Program collaborators (Fault τ) Unit
  | .noOp _ => pure ()
  | .create secret => do
    let _ ← Program.request (σ := collaborators) (.create secret)
    Program.request (σ := collaborators)
      (.emit Names.createdReason s!"Secret {p.targetPath} created")
  | .update secret => do
    let _ ← Program.request (σ := collaborators) (.update secret)
    Program.request (σ := collaborators)
      (.emit Names.updatedReason s!"Secret {p.targetPath} updated")

/-- One synchronisation (`sync`); its value is the decision that was carried out.  The mirror is
looked up only if there is a canonical secret. -/
def sync (p : Places) : Program collaborators (Fault τ) Decision := do
  match ← lookUp p.space p.source with
  | none => decided none none p.target
  | some source => do
    let target ← lookUp p.space p.target
    let decision ← decided (some source) target p.target
    execute p decision
    return decision

end SecretMirror.Sync
