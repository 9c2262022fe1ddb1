import SecretMirror.Fault

/-!
# Disturbances

Faults that calls of the API meet.  A disturbance concerns the calls with one verb, possibly only
those about one name, and the next few of them or all.  It strikes before the call has an effect or,
for writes, after it.
-/

namespace SecretMirror.Cluster

inductive Verb where
  | read | create | replace
  deriving DecidableEq, Repr

def Verb.name : Verb → String
  | .read => "read"
  | .create => "create"
  | .replace => "replace"

/-- A fault that calls meet, for as many calls as it lasts, about one name or any.  A late one lets
the call take effect first. -/
structure Disturbance (τ : Type) where
  /-- What they fail with. -/
  fault : Fault τ
  /-- How many calls still meet it; `none` if all do. -/
  times : Option Int := none
  /-- Whether a write has its effect before it fails. -/
  isLate : Bool := false
  /-- The name that a call has to be about to meet it. -/
  name? : Option Value := none

namespace Disturbance

variable {τ : Type}

def concerns (d : Disturbance τ) (name : Value) : Bool :=
  match d.name? with
  | none => true
  | some n => n.same name

/-- What is left of a disturbance after a call has met it.  One that lasts for no more than one call
is used up, whatever its count says. -/
def spent (d : Disturbance τ) : Option (Disturbance τ) :=
  match d.times with
  | none => some d
  | some n => if n ≤ 1 then none else some { d with times := some (n - 1) }

end Disturbance

/-- The disturbances that are planned for the verbs, at most one for each. -/
abbrev Disturbances (τ : Type) := Verb → Option (Disturbance τ)

namespace Disturbances

variable {τ : Type}

def plan (ds : Disturbances τ) (verb : Verb) (d? : Option (Disturbance τ)) : Disturbances τ :=
  fun other => if other = verb then d? else ds other

/-- What a call meets, and what is planned afterwards.  A call about another name leaves the plan as
it is. -/
def meet (ds : Disturbances τ) (verb : Verb) (name : Value) :
    Option (Disturbance τ) × Disturbances τ :=
  match ds verb with
  | none => (none, ds)
  | some d => if d.concerns name then (some d, ds.plan verb d.spent) else (none, ds)

end Disturbances

end SecretMirror.Cluster
