import SecretMirror.Proofs.CacheView
import SecretMirror.Proofs.RunHistory
import SecretMirror.Proofs.ExactTime
import SecretMirror.Proofs.SharedCluster

/-!
# The operator in a cluster that cannot be trusted

An `UntrustedCluster` is what the activities of the operator share where nothing can be relied on: a
clock that never goes back, the cache, and what an API server has stored.  Any number of activities
run there side by side (`UntrustedCluster.medium`), among them the handling of watch events with any
body.

The clock and the cache do what they are for.  The server may store what it likes at any moment,
fail any call with or without effect, and answer a read by any object of the name and namespace that
were asked for; no answer needs to be what is stored.  A write changes nothing but what it is
addressed to.

Every cached secret was put there in some step of the run, at the time that its entry says, and lies
under its own key (`UntrustedCluster.exists_put`).  So what is found under a key is about that key,
whether it was cached or read (`UntrustedCluster.isHonest_of_step`).
-/

namespace SecretMirror

open Operator

namespace Operator

variable {τ : Type}

/-- The record is about the secret with a namespace and a name. -/
def WireSecret.HasAddress (w : WireSecret) (space name : Value) : Prop :=
  Key.ofValues w.metadata.space w.metadata.name = Key.ofValues space name

/-- A write that is asked for, with the namespace and the name that it is addressed to. -/
structure Write where
  space : Value
  name : Value
  body : WireSecret

/-- The write that a request asks for.  A secret is created under the name in its body, since
`create_secret` passes the namespace only. -/
def Request.write? : Request τ → Option Write
  | .create space body => some ⟨space, body.metadata.name, body⟩
  | .replace space name body => some ⟨space, name, body⟩
  | _ => none

/-- What is answered is about what was asked for, by its namespace and its name.  The content may be
anything. -/
def IsHonest : Exchange (requests τ) (Fault τ) → Prop
  | ⟨.cacheGet key, .ok (some s)⟩ => s.key = .ok key
  | ⟨.read space name, .ok w⟩ => WireSecret.HasAddress w space name
  | ⟨.create space body, .ok (some w)⟩ => WireSecret.HasAddress w space body.metadata.name
  | ⟨.replace space name _, .ok (some w)⟩ => WireSecret.HasAddress w space name
  | _ => True

end Operator

/-- What activities share where nothing can be relied on. -/
structure UntrustedCluster (τ : Type) where
  clock : τ
  cache : Cache τ
  /-- What is stored under a key. -/
  objects : Key → Option WireSecret

namespace UntrustedCluster

variable {τ : Type}

/-- Time passes, and the cache is as it was.  What is stored may be anything afterwards. -/
structure Waits [LE τ] (s t : UntrustedCluster τ) : Prop where
  clock : s.clock ≤ t.clock
  cache : t.cache = s.cache

/-- Nothing has changed in the store but at an address. -/
def ChangesOnlyAt (s : UntrustedCluster τ) (space name : Value) (t : UntrustedCluster τ) : Prop :=
  ∀ key, Key.ofValues space name ≠ .ok key → t.objects key = s.objects key

/-- An operation on the cache has the given outcome. -/
def Caches (s : UntrustedCluster τ) (r : Except Malformed (Cache τ)) (a : Except (Fault τ) Unit)
    (t : UntrustedCluster τ) : Prop :=
  match r with
  | .ok cache => a = .ok () ∧ t = { s with cache := cache }
  | .error m => a = .error (.malformed m) ∧ t = s

/-- How a request may be answered. -/
def Answers [Time τ] : (q : Operator.Request τ) → UntrustedCluster τ →
    Except (Fault τ) ((requests τ).Answer q) → UntrustedCluster τ → Prop
  | .cacheGet key, s, a, t =>
    a = .ok (s.cache.get key s.clock).1 ∧ t = { s with cache := (s.cache.get key s.clock).2 }
  | .cachePut secret, s, a, t => s.Caches (s.cache.putOwn secret s.clock) a t
  | .cacheForget space name, s, a, t => s.Caches (s.cache.forgetValues space name) a t
  | .read space name, s, a, t => s.Waits t ∧ t.objects = s.objects ∧
    ∀ w, a = .ok w → WireSecret.HasAddress w space name
  | .create space body, s, a, t => s.Waits t ∧ s.ChangesOnlyAt space body.metadata.name t ∧
    ∀ w, a = .ok (some w) → WireSecret.HasAddress w space body.metadata.name
  | .replace space name _, s, a, t => s.Waits t ∧ s.ChangesOnlyAt space name t ∧
    ∀ w, a = .ok (some w) → WireSecret.HasAddress w space name
  | _, s, _, t => s.Waits t ∧ t.objects = s.objects

end UntrustedCluster

namespace Activity

variable {τ : Type}

/-- The activity is about the two secrets of the operator, which are the default places of a
synchronisation. -/
def IsOfOperator : Activity τ → Prop
  | .sync _ places => places = {}
  | _ => True

/-- The activity handles a watch event that tells of the secret, and not that it is gone. -/
def Tells : Activity τ → Secret → Prop
  | .observe eventType body _ _, s =>
    eventType.text? ≠ some "DELETED" ∧ Secret.ofBody body = .ok s
  | .handle _ eventType body _ _, s =>
    eventType.text? ≠ some "DELETED" ∧ Secret.ofBody body = .ok s
  | _, _ => False

end Activity

/-- Such a cluster as what the threads of the operator share. -/
def UntrustedCluster.medium {τ : Type} [Time τ] :
    Interleaving.Medium (requests τ) (Fault τ) (UntrustedCluster τ) where
  answers := UntrustedCluster.Answers
  interferes := UntrustedCluster.Waits
  starts _ p := ∃ activity : Activity τ, activity.IsOfOperator ∧ p = activity.program

namespace UntrustedCluster

open Interleaving

variable {τ : Type} [Time τ] {s t : UntrustedCluster τ} {q : Operator.Request τ}
  {a : Except (Fault τ) ((requests τ).Answer q)}

/-! ## One step -/

omit [Time τ] in
theorem Caches.cases {r : Except Malformed (Cache τ)} {a : Except (Fault τ) Unit}
    (h : s.Caches r a t) :
    (∃ cache, r = .ok cache ∧ a = .ok () ∧ t = { s with cache := cache }) ∨ t = s := by
  unfold Caches at h
  split at h
  · next cache => exact .inl ⟨cache, rfl, h⟩
  · exact .inr h.2

/-- A cached entry was there before, or the request was to put it there, just now and under its own
key. -/
theorem Answers.cached (h : Answers q s a t) {key : Key} {e : Entry τ}
    (he : t.cache.find? key = some e) :
    s.cache.find? key = some e ∨ e.secret.key = .ok key ∧ e.storedAt = s.clock ∧
      (⟨q, a⟩ : Exchange (requests τ) (Fault τ)) = ⟨.cachePut e.secret, .ok ()⟩ := by
  have hwaits : s.Waits t → s.cache.find? key = some e := fun hw => by
    rw [← hw.cache]
    exact he
  cases q with
  | cacheGet other =>
    obtain ⟨-, rfl⟩ := h
    exact .inl (Cache.find?_of_find?_get _ _ _ he)
  | cachePut secret =>
    rcases Caches.cases h with ⟨cache, hput, rfl, rfl⟩ | rfl
    · rcases Cache.entry_of_putOwn hput he with he | ⟨hkey, rfl⟩
      · exact .inl he
      · exact .inr ⟨hkey, rfl, rfl⟩
    · exact .inl he
  | cacheForget space name =>
    rcases Caches.cases h with ⟨cache, hforget, -, rfl⟩ | rfl
    · exact .inl (Cache.find?_of_forgetValues hforget he)
    · exact .inl he
  | _ => exact .inl (hwaits h.1)

theorem Answers.passes [Time.IsExact τ] (h : Answers q s a t) :
    t.cache.ttl = s.cache.ttl ∧ s.clock ≤ t.clock := by
  have hwaits : s.Waits t → t.cache.ttl = s.cache.ttl ∧ s.clock ≤ t.clock := fun hw =>
    ⟨by rw [hw.cache], hw.clock⟩
  cases q with
  | cacheGet other =>
    obtain ⟨-, rfl⟩ := h
    exact ⟨Cache.ttl_get _ _ _, Time.le_refl _⟩
  | cachePut secret =>
    rcases Caches.cases h with ⟨cache, hput, -, rfl⟩ | rfl
    · exact ⟨Cache.ttl_of_putOwn hput, Time.le_refl _⟩
    · exact ⟨rfl, Time.le_refl _⟩
  | cacheForget space name =>
    rcases Caches.cases h with ⟨cache, hforget, -, rfl⟩ | rfl
    · exact ⟨Cache.ttl_of_forgetValues hforget, Time.le_refl _⟩
    · exact ⟨rfl, Time.le_refl _⟩
  | _ => exact hwaits h.1

/-- Every entry lies under the key of its secret. -/
def IsFiled (s : UntrustedCluster τ) : Prop := ∀ key e, s.cache.find? key = some e → e.secret.key =
    .ok key

theorem Answers.isHonest (h : Answers q s a t) (hfiled : s.IsFiled) :
    IsHonest (⟨q, a⟩ : Exchange (requests τ) (Fault τ)) := by
  cases q with
  | cacheGet key =>
    obtain ⟨ha, -⟩ := h
    cases hfound : (s.cache.get key s.clock).1 with
    | none =>
      rw [ha, hfound]
      trivial
    | some secret =>
      obtain ⟨e, he, -, rfl⟩ := Cache.find?_of_get _ _ _ hfound
      rw [ha, hfound]
      exact hfiled key e he
  | read space name =>
    cases a with
    | error fault => trivial
    | ok w => exact h.2.2 w rfl
  | create space body =>
    cases a with
    | error fault => trivial
    | ok answer =>
      cases answer with
      | none => trivial
      | some w => exact h.2.2 w rfl
  | replace space name body =>
    cases a with
    | error fault => trivial
    | ok answer =>
      cases answer with
      | none => trivial
      | some w => exact h.2.2 w rfl
  | _ => trivial

/-- Only a write changes what is stored, and only where it is addressed to. -/
theorem Answers.objects (h : Answers q s a t) {key : Key}
    (hkey : ∀ w, q.write? = some w → Key.ofValues w.space w.name ≠ .ok key) :
    t.objects key = s.objects key := by
  have hcaches : ∀ {r : Except Malformed (Cache τ)} {a : Except (Fault τ) Unit}, s.Caches r a t →
      t.objects key = s.objects key := by
    intro r a h
    rcases h.cases with ⟨cache, -, -, rfl⟩ | rfl <;> rfl
  cases q with
  | cacheGet other =>
    rw [h.2]
  | cachePut secret => exact hcaches h
  | cacheForget space name => exact hcaches h
  | create space body => exact h.2.1 key (hkey _ rfl)
  | replace space name body => exact h.2.1 key (hkey _ rfl)
  | read space name => exact congrFun h.2.1 key
  | _ => exact congrFun h.2 key

/-! ## Whole runs -/

variable {P Q : Pool (requests τ) (Fault τ) (UntrustedCluster τ)}
  {es : List (Interleaving.Event (requests τ) (Fault τ))}
  {e : Interleaving.Event (requests τ) (Fault τ)}

/-- Every cached secret lies under its own key and was put there in some step, at the time that its
entry says. -/
theorem exists_put (hempty : s.cache.slots = []) (hrun : Run medium ⟨s, []⟩ es P) :
    ∀ key e, P.shared.cache.find? key = some e → e.secret.key = .ok key ∧
      ∃ fs X j, Occurs medium ⟨s, []⟩ es P fs X (.answered j ⟨.cachePut e.secret, .ok ()⟩) ∧
        X.shared.clock = e.storedAt := by
  -- The invariant is the statement itself at every moment of the run; a step keeps what has
  -- happened, and the only one that brings an entry is the one that puts it.
  refine hrun.keeps_since (I := fun es P => ∀ key e, P.shared.cache.find? key = some e →
    e.secret.key = .ok key ∧ ∃ fs X j,
      Occurs medium ⟨s, []⟩ es P fs X (.answered j ⟨.cachePut e.secret, .ok ()⟩) ∧
        X.shared.clock = e.storedAt) (fun {es P happened Q} hrun ih hs key e he => ?_) ?_
  · have hbefore : P.shared.cache.find? key = some e → e.secret.key = .ok key ∧ ∃ fs X j,
        Occurs medium ⟨s, []⟩ (es ++ [happened]) Q fs X
          (.answered j ⟨.cachePut e.secret, .ok ()⟩) ∧ X.shared.clock = e.storedAt := by
      intro he
      obtain ⟨hkey, fs, X, j, hoccurs, hclock⟩ := ih key e he
      exact ⟨hkey, fs, X, j, hoccurs.later hs, hclock⟩
    cases happened with
    | interfered =>
      cases hs with
      | interfere hst =>
        refine hbefore ?_
        rw [← hst.cache]
        exact he
    | started p =>
      cases hs with
      | start _ => exact hbefore he
    | answered i x =>
      obtain ⟨next, -, hanswer, -⟩ := hs.exists_asking
      rcases hanswer.cached he with he | ⟨hkey, hclock, hx⟩
      · exact hbefore he
      · rw [show x = ⟨.cachePut e.secret, .ok ()⟩ from hx] at hs ⊢
        exact ⟨hkey, es, P, i, .last hrun hs, hclock.symm⟩
  · intro key e he
    rw [Cache.find?, hempty] at he
    cases he

theorem isFiled_of_run (hempty : s.cache.slots = []) (hrun : Run medium ⟨s, []⟩ es P) :
    P.shared.IsFiled :=
  fun key e he => (exists_put hempty hrun key e he).1

/-- All that is answered is about what was asked for, given that this holds of the API. -/
theorem isHonest_of_step (hempty : s.cache.slots = []) (hrun : Run medium ⟨s, []⟩ es P) {i : Nat}
    {x : Exchange (requests τ) (Fault τ)} (hs : Step medium P (.answered i x) Q) : IsHonest x := by
  obtain ⟨next, -, hanswer, -⟩ := hs.exists_asking
  exact hanswer.isHonest (isFiled_of_run hempty hrun)

theorem isHonest_of_mem (hempty : s.cache.slots = []) (hrun : Run medium ⟨s, []⟩ es P) {i : Nat}
    {x : Exchange (requests τ) (Fault τ)} (hx : x ∈ exchanges i es) : IsHonest x := by
  obtain ⟨fs, X, hbefore, Y, gs, hs, -, -⟩ := hrun.exists_occurs (mem_exchanges_iff.1 hx)
  exact isHonest_of_step hempty hbefore hs

theorem passes_of_run [Time.IsExact τ] (hrun : Run medium P es Q) :
    Q.shared.cache.ttl = P.shared.cache.ttl ∧ P.shared.clock ≤ Q.shared.clock := by
  induction hrun with
  | stay P => exact ⟨rfl, Time.le_refl _⟩
  | @step P Q R e es hs _ ih =>
    have hstep : Q.shared.cache.ttl = P.shared.cache.ttl ∧ P.shared.clock ≤ Q.shared.clock := by
      cases hs with
      | interfere hst => exact ⟨by rw [hst.cache], hst.clock⟩
      | start _ => exact ⟨rfl, Time.le_refl _⟩
      | answer _ ha => exact Answers.passes ha
    exact ⟨ih.1.trans hstep.1, Time.IsExact.le_trans hstep.2 ih.2⟩

end UntrustedCluster

end SecretMirror
