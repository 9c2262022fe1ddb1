import SecretMirror.Operator.Reconcile
import SecretMirror.Proofs.Contract
import SecretMirror.Proofs.Wire.RoundTrip
import Mathlib.Data.Set.Lattice
import Mathlib.Order.CompletePartialOrder

/-!
# The operator among other clients

A `SharedCluster` is what all parties share: the cache of the operator, what an API server has
stored, and every version that it ever stored.  `SharedCluster.medium` lets any number of activities
of the operator run there side by side, each at the grain of single requests, while other clients
write and delete what they like.

The server is any that keeps to optimistic concurrency.  It stores records of the usual shapes, each
with a version that is not null and that it never uses for other content (`IsArchive`).  It refuses
to create a secret that exists and to replace one whose version differs from that of the body.  It
may fail any call, a write even after it has taken effect, and it answers with what is stored.  The
clock is free, so cached secrets may expire whenever they are asked for.

Watch events show versions that were stored at some time, not necessarily the latest one.
-/

namespace SecretMirror

open Operator

/-- A record of the shapes that a server stores: it has a version, and each section is null or of
the kind that belongs there. -/
structure WireSecret.IsSound (w : WireSecret) : Prop where
  version : w.metadata.resourceVersion ≠ .null
  annotations : w.metadata.annotations = .null ∨ ∃ fields, w.metadata.annotations = .object fields
  labels : w.metadata.labels = .null ∨ ∃ fields, w.metadata.labels = .object fields
  finalizers : w.metadata.finalizers = .null ∨ ∃ items, w.metadata.finalizers = .list items
  ownerReferences :
    w.metadata.ownerReferences = .null ∨ ∃ items, w.metadata.ownerReferences = .list items
  data : ∃ data, w.data.dataSection = .ok data

/-- What a server may have stored over time: sound records, and no version for two of them. -/
structure IsArchive (versions : Set WireSecret) : Prop where
  sound : ∀ w ∈ versions, w.IsSound
  distinct : ∀ v ∈ versions, ∀ w ∈ versions,
    v.metadata.resourceVersion.same w.metadata.resourceVersion = true → v = w

/-- What the operator and other clients share. -/
structure SharedCluster (τ : Type) where
  cache : Cache τ
  /-- What is stored under a key. -/
  objects : Key → Option WireSecret
  /-- Everything that was ever stored. -/
  versions : Set WireSecret

namespace SharedCluster

variable {τ : Type}

/-- The server stores a record under a key, and the record becomes one of the versions. -/
def Stores (s : SharedCluster τ) (key : Key) (w : WireSecret) (t : SharedCluster τ) : Prop :=
  IsArchive (insert w s.versions) ∧
    t = { s with
      objects := fun other => if other = key then some w else s.objects other
      versions := insert w s.versions }

/-- A body takes effect under a key, as the given record, which differs from it in its version
only. -/
def TakesEffect (s : SharedCluster τ) (key : Key) (body stored : WireSecret) (t : SharedCluster τ) :
    Prop :=
  (∃ version, stored = body.withVersion version) ∧ s.Stores key stored t

def Fails {α : Type} (s : SharedCluster τ) (a : Except (Fault τ) α) (t : SharedCluster τ) : Prop :=
  (∃ fault, a = .error fault) ∧ t = s

/-- An operation on the cache has the given outcome. -/
def Caches (s : SharedCluster τ) (r : Except Malformed (Cache τ)) (a : Except (Fault τ) Unit)
    (t : SharedCluster τ) : Prop :=
  match r with
  | .ok cache => a = .ok () ∧ t = { s with cache := cache }
  | .error m => a = .error (.malformed m) ∧ t = s

/-- The answer to a write is what was stored, if it is an answer at all. -/
def AnswersWith (stored : WireSecret) (a : Except (Fault τ) (Option WireSecret)) : Prop :=
  ∀ r, a = .ok r → r = some stored

/-- How a request may be answered.  The clock may show anything, and any call may fail with any
fault. -/
def Answers [Time τ] : (q : Operator.Request τ) → SharedCluster τ →
    Except (Fault τ) ((requests τ).Answer q) → SharedCluster τ → Prop
  | .cacheGet key, s, a, t => ∃ now,
    a = .ok (s.cache.get key now).1 ∧ t = { s with cache := (s.cache.get key now).2 }
  | .cachePut secret, s, a, t => ∃ now, s.Caches (s.cache.putOwn secret now) a t
  | .cacheForget space name, s, a, t => s.Caches (s.cache.forgetValues space name) a t
  | .read space name, s, a, t =>
    t = s ∧ ∀ w, a = .ok w → ∃ key, Key.ofValues space name = .ok key ∧ s.objects key = some w
  | .create space body, s, a, t =>
    s.Fails a t ∨ ∃ key stored,
      Key.ofValues space body.metadata.name = .ok key ∧ s.objects key = none ∧
        s.TakesEffect key body stored t ∧ AnswersWith stored a
  | .replace space name body, s, a, t =>
    s.Fails a t ∨ ∃ key old stored,
      Key.ofValues space name = .ok key ∧ s.objects key = some old ∧
        body.metadata.resourceVersion.same old.metadata.resourceVersion = true ∧
        s.TakesEffect key body stored t ∧ AnswersWith stored a
  | _, s, _, t => t = s

/-- What other clients may do: write any record under any key, and delete. -/
def Interferes (s t : SharedCluster τ) : Prop :=
  (∃ key w, s.Stores key w t) ∨
    ∃ key, t = { s with objects := fun other => if other = key then none else s.objects other }

end SharedCluster

/-- What the operator may be doing. -/
inductive Activity (τ : Type) where
  /-- One synchronisation. -/
  | sync (rate : τ) (places : Sync.Places)
  /-- One reconciliation. -/
  | reconcile (tuning : Tuning τ) (trigger : Value)
  /-- The update of the cache from a watch event. -/
  | observe (eventType body name space : Value)
  /-- The whole handling of a watch event. -/
  | handle (tuning : Tuning τ) (eventType body name space : Value)
  /-- A tick of the schedule. -/
  | tick (tuning : Tuning τ)

namespace Activity

variable {τ : Type} [Time τ]

/-- The program of an activity. -/
def program : Activity τ → Task τ Unit
  | .sync rate places => do
    let _ ← Operator.sync rate places
    return ()
  | .reconcile tuning trigger => do
    let _ ← Operator.reconcile tuning trigger
    return ()
  | .observe eventType body name space => Operator.observe eventType body name space
  | .handle tuning eventType body name space =>
    Operator.handleEvent tuning eventType body name space
  | .tick tuning => do
    let _ ← Operator.tick tuning
    return ()

/-- The watch event of an activity, if there is one, shows what was once stored. -/
def IsInformedBy (versions : Set WireSecret) : Activity τ → Prop
  | .observe _ body _ _ => ∃ w ∈ versions, body.Shows w
  | .handle _ _ body _ _ => ∃ w ∈ versions, body.Shows w
  | _ => True

end Activity

/-- A cluster as what the threads of the operator share. -/
def SharedCluster.medium {τ : Type} [Time τ] :
    Interleaving.Medium (requests τ) (Fault τ) (SharedCluster τ) where
  answers := SharedCluster.Answers
  interferes := SharedCluster.Interferes
  starts s p := ∃ activity : Activity τ, activity.IsInformedBy s.versions ∧ p = activity.program

end SecretMirror
