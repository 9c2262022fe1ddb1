import SecretMirror.Cache
import SecretMirror.Secret.Wire
import SecretMirror.Text.Digit

/-!
# The API server

What the operator and other clients share: secrets under their namespaces and names, each with the
version under which it was stored.  Every write that succeeds gives out the next version.  A secret
is created only if there is none, and replaced only by a body that carries the version of the one
that is there, so a write that is based on an older state is refused.
-/

namespace SecretMirror

def WireSecret.withVersion (w : WireSecret) (version : Value) : WireSecret :=
  { w with metadata := { w.metadata with resourceVersion := version } }

namespace Cluster

/-- The secrets that are stored and the number of versions that were given out.  The number only
grows, so no two writes are given the same version. -/
structure Server where
  /-- What is stored under a key. -/
  objects : Key → Option WireSecret := fun _ => none
  /-- How many versions were given out. -/
  version : Nat := 0

/-- Why the server refuses a call: there is no such object, there is one already, or its version has
changed. -/
inductive Refusal where
  /-- There is no such secret. -/
  | notFound
  /-- There is such a secret already. -/
  | alreadyExists
  /-- The secret has another version by now. -/
  | conflict
  deriving DecidableEq, Repr

/-- A refusal as the caller sees it, which is an error of the API with a status and a reason. -/
def Refusal.fault {τ : Type} : Refusal → Fault τ
  | .notFound => .api (.int 404) (.text "Not Found") .null
  | .alreadyExists => .api (.int 409) (.text "AlreadyExists") .null
  | .conflict => .api (.int 409) (.text "Conflict") .null

namespace Server

def versionText (n : Nat) : Value := .text (String.ofList (Text.digits n))

def set (s : Server) (key : Key) (w? : Option WireSecret) : Server :=
  { s with objects := fun other => if other = key then w? else s.objects other }

/-- Stores a body under a key with the next version, whatever version it says it has.  Versions are
given out in order and never twice. -/
def commit (s : Server) (key : Key) (body : WireSecret) : WireSecret × Server :=
  let stored := body.withVersion (versionText (s.version + 1))
  (stored, { s.set key (some stored) with version := s.version + 1 })

def read (s : Server) (key : Key) : Except Refusal WireSecret :=
  match s.objects key with
  | some stored => .ok stored
  | none => .error .notFound

/-- Creates a secret under a key, if there is none; otherwise the call is refused. -/
def create (s : Server) (key : Key) (body : WireSecret) : Except Refusal WireSecret × Server :=
  match s.objects key with
  | some _ => (.error .alreadyExists, s)
  | none =>
    let (stored, s) := s.commit key body
    (.ok stored, s)

/-- Replaces the secret under a key, if there is one and the body carries its version.  So a write
that is based on an older state is refused. -/
def replace (s : Server) (key : Key) (body : WireSecret) : Except Refusal WireSecret × Server :=
  match s.objects key with
  | none => (.error .notFound, s)
  | some old =>
    if body.metadata.resourceVersion.same old.metadata.resourceVersion then
      let (stored, s) := s.commit key body
      (.ok stored, s)
    else (.error .conflict, s)

/-- Another client writes a secret, whatever was there.  It has the version that it says it has, or
else the next one. -/
def place (s : Server) (key : Key) (w : WireSecret) : Server :=
  let own := match w.metadata.resourceVersion with
    | .null => w.withVersion (versionText (s.version + 1))
    | _ => w
  { s.set key (some own) with version := s.version + 1 }

def delete (s : Server) (key : Key) : Server := s.set key none

/-! ## What is stored afterwards -/

@[simp] theorem objects_set (s : Server) (key other : Key) (w? : Option WireSecret) :
    (s.set key w?).objects other = if other = key then w? else s.objects other := rfl

@[simp] theorem version_set (s : Server) (key : Key) (w? : Option WireSecret) :
    (s.set key w?).version = s.version := rfl

theorem objects_commit (s : Server) (key other : Key) (body : WireSecret) :
    (s.commit key body).2.objects other =
      if other = key then some (s.commit key body).1 else s.objects other := rfl

end Server

end Cluster

end SecretMirror
