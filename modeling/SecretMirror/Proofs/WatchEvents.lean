import SecretMirror.Cluster
import SecretMirror.Proofs.CacheView
import SecretMirror.Proofs.Deciding
import SecretMirror.Proofs.Retry
import SecretMirror.Proofs.Running
import SecretMirror.Proofs.Wire.RoundTrip

/-!
# Which watch events are acted on

A watch event is taken in before anything is run, and only what is run is tried again when it fails.
So what becomes of an event depends on whether the cache can take it in (`Cache.IsLegible`): a
deletion needs a key, unless nothing is cached, and any other event needs a body that reads as a
secret with a key.

A run never fails (`gives_run`): it reconciles once and, if that fails, wants a retry in time
(`Reacts`).  Hence a legible event is acted on, whatever the schedule, the cache and the faults that
the reconciliation meets.  An event that is not legible is lost: the fault is raised, no
reconciliation runs, and no retry is wanted (`handleEvent_acts_iff`).
-/

namespace SecretMirror

open Operator
open Program hiding bind ask

variable {τ : Type}

namespace Cache

/-- What a watch event at a time makes of the cache: a deletion drops what is cached under the key,
and any other event caches the secret that the body shows. -/
def witnessed (cache : Cache τ) (eventType body name space : Value) (now : τ) :
    Except Malformed (Cache τ) :=
  if eventType.text? = some "DELETED" then cache.forgetValues space name
  else do
    let secret ← Secret.ofBody body
    cache.putOwn secret now

/-- The cache can take a watch event in. -/
def IsLegible (cache : Cache τ) (eventType body name space : Value) : Prop :=
  if eventType.text? = some "DELETED" then
    cache.slots = [] ∨ ∃ key, Key.ofValues space name = .ok key
  else ∃ secret key, Secret.ofBody body = .ok secret ∧ secret.key = .ok key

theorem exists_putOwn_iff (cache : Cache τ) (secret : Secret) (now : τ) :
    (∃ later, cache.putOwn secret now = .ok later) ↔ ∃ key, secret.key = .ok key := by
  simp [putOwn_eq_ok_iff]

/-- The cache takes in exactly the legible events. -/
theorem exists_witnessed_iff (cache : Cache τ) (eventType body name space : Value) (now : τ) :
    (∃ later, cache.witnessed eventType body name space now = .ok later) ↔
      cache.IsLegible eventType body name space := by
  unfold witnessed IsLegible
  by_cases hdeleted : eventType.text? = some "DELETED"
  · rw [if_pos hdeleted, if_pos hdeleted]
    exact exists_forgetValues_iff cache space name
  · rw [if_neg hdeleted, if_neg hdeleted]
    cases hbody : Secret.ofBody body with
    | error reason => simp [bind, Except.bind]
    | ok secret =>
      have hput := exists_putOwn_iff cache secret now
      simpa [bind, Except.bind] using hput

end Cache

namespace Cluster

variable [Time τ]

/-- The cache takes a watch event in, or the event is refused and nothing happens. -/
theorem run_observe (timing : Resync.Timing τ) (eventType body name space : Value)
    (c : Cluster τ) :
    (observe eventType body name space).run (handle timing) c =
      c.changeCache (c.cache.witnessed eventType body name space c.clock) := by
  unfold observe Cache.witnessed
  by_cases hdeleted : eventType.text? = some "DELETED"
  · rw [if_pos hdeleted, if_pos hdeleted]
    rfl
  · rw [if_neg hdeleted, if_neg hdeleted]
    cases hbody : Secret.ofBody body with
    | error reason => rfl
    | ok secret => rfl

/-! ## Runs -/

/-- One reconciliation has run for a reason, and if it failed a retry is wanted in time. -/
inductive Reacts (timing : Resync.Timing τ) (tuning : Tuning τ) (trigger : Value)
    (c d : Cluster τ) : Prop where
  | finishes {decision : Decision}
      (hran : (reconcile tuning trigger).run (handle timing) c = (.ok decision, d))
  | retries {fault : Fault τ} {e : Cluster τ}
      (hran : (reconcile tuning trigger).run (handle timing) c = (.error fault, e))
      (hrest : d = { e with schedule := d.schedule })
      (hwanted : Resync.Pending (e.clock + Resync.retryDelay tuning.timing fault) d.schedule)

variable [Time.IsExact τ] (timing : Resync.Timing τ) (tuning : Tuning τ)

theorem gives_scheduleRetry (delay : τ) (c : Cluster τ) :
    ∃ d, (Resync.scheduleRetry delay).Gives (fun q => (embed tuning q).run (handle timing)) c () d ∧
      d = { c with schedule := d.schedule } ∧
      Resync.Pending (c.clock + delay) d.schedule := by
  have hposted : Resync.Pending (c.clock + delay) (c.schedule.post (c.clock + delay)) :=
    Resync.pending_post _ _
  exact ⟨{ c with schedule := { c.schedule.post (c.clock + delay) with wakeup := true } },
    rfl, rfl, hposted⟩

/-- A run never fails, so what is tried again is left to the schedule. -/
theorem gives_run (trigger : Value) (c : Cluster τ) :
    ∃ d, (Operator.run tuning trigger).Gives (handle timing) c () d ∧
      Reacts timing tuning trigger c d := by
  cases hran : (reconcile tuning trigger).run (handle timing) c with
  | mk result e =>
    have hreconciled : (embed tuning (.reconcile trigger)).run (handle timing) c =
        (result.map fun _ => (), e) := by
      show (reconcile tuning trigger >>= fun _ => pure ()).run (handle timing) c = _
      rw [run_bind, hran]
      cases result with
      | ok decision => rfl
      | error fault => rfl
    cases result with
    | ok decision =>
      refine ⟨e, gives_interpret (gives_recover (gives_request hreconciled)), ?_⟩
      exact .finishes hran
    | error fault =>
      obtain ⟨d, hscheduled, hrest, hwanted⟩ :=
        gives_scheduleRetry timing tuning (Resync.retryDelay tuning.timing fault) e
      refine ⟨d, gives_interpret (gives_recover_of_error ?_ hscheduled), ?_⟩
      · show (Program.request (σ := Resync.requests τ) (.reconcile trigger)).run _ c = _
        exact hreconciled
      · exact .retries hran hrest hwanted

/-! ## Events -/

/-- A legible event is acted on: the cache takes it in, one reconciliation runs, and if that fails a
retry is wanted in time.  An event that is not legible is refused before anything is run, and leaves
everything as it was, so no retry is wanted on its account.  Nothing else happens. -/
theorem handleEvent_acts_iff (c : Cluster τ) (eventType body name space : Value) :
    ((∃ cache d, c.cache.witnessed eventType body name space c.clock = .ok cache ∧
        (handleEvent tuning eventType body name space).run (handle timing) c = (.ok (), d) ∧
        Reacts timing tuning (.text "event") { c with cache := cache } d) ↔
      c.cache.IsLegible eventType body name space) ∧
    ((∃ reason, (handleEvent tuning eventType body name space).run (handle timing) c =
        (.error (.malformed reason), c)) ↔
      ¬ c.cache.IsLegible eventType body name space) := by
  have hrun : (handleEvent tuning eventType body name space).run (handle timing) c = _ :=
    run_bind (handle timing) (observe eventType body name space)
      (fun _ => Operator.run tuning (.text "event")) c
  rw [run_observe] at hrun
  have hlegible := c.cache.exists_witnessed_iff eventType body name space c.clock
  -- Whether the event is taken in decides everything, for a run that follows never fails.
  cases hwitnessed : c.cache.witnessed eventType body name space c.clock with
  | error reason =>
    have hnot : ¬ c.cache.IsLegible eventType body name space := by
      rw [← hlegible, hwitnessed]
      exact nofun
    rw [hwitnessed] at hrun
    refine ⟨⟨?_, fun h => absurd h hnot⟩, ⟨fun _ => hnot, fun _ => ⟨reason, hrun⟩⟩⟩
    rintro ⟨_, _, hok, -⟩
    cases hok
  | ok cache =>
    have his : c.cache.IsLegible eventType body name space := hlegible.1 ⟨cache, hwitnessed⟩
    obtain ⟨d, hgives, hreacts⟩ :=
      gives_run timing tuning (.text "event") { c with cache := cache }
    rw [hwitnessed] at hrun
    have hdone : (handleEvent tuning eventType body name space).run (handle timing) c =
        (.ok (), d) := hrun.trans hgives
    refine ⟨⟨fun _ => his, fun _ => ⟨cache, d, rfl, hdone, hreacts⟩⟩, ⟨?_, fun h => absurd his h⟩⟩
    rintro ⟨_, hraised⟩
    rw [hdone] at hraised
    cases hraised

/-- The body of an event about the canonical secret, as it is stored, is acted on. -/
theorem handleEvent_acts_on_canonical :
    ∃ cache d, (handleEvent (⟨8, 5, ⟨300, 30⟩⟩ : Tuning ℚ) (.text "MODIFIED")
        Example.canonical.toValue (.text Names.source) (.text Names.configNamespace)).run
        (handle ⟨300, 30⟩) (Cluster.new 1000 30) = (.ok (), d) ∧
      Reacts ⟨300, 30⟩ ⟨8, 5, ⟨300, 30⟩⟩ (.text "event") { Cluster.new 1000 30 with cache := cache }
        d := by
  have hlegible : (Cluster.new (1000 : ℚ) 30).cache.IsLegible (.text "MODIFIED")
      Example.canonical.toValue (.text Names.source) (.text Names.configNamespace) := by
    unfold Cache.IsLegible
    rw [if_neg (by simp [Value.text?])]
    exact ⟨Example.source, Key.source, rfl, rfl⟩
  obtain ⟨cache, d, -, hrun, hreacts⟩ := (handleEvent_acts_iff ⟨300, 30⟩ ⟨8, 5, ⟨300, 30⟩⟩
    (Cluster.new 1000 30) (.text "MODIFIED") Example.canonical.toValue (.text Names.source)
    (.text Names.configNamespace)).1.2 hlegible
  exact ⟨cache, d, hrun, hreacts⟩

/-- A version of the canonical secret with a datum that is no base64 text. -/
def garbled : WireSecret := { Example.canonical with data := .object [("a", .text "A")] }

/-- A cluster in which it is stored. -/
def corrupted : Cluster ℚ :=
  { Cluster.new 1000 30 with
    server := {
      objects := fun key => if key = .source then some garbled else none
      version := 1 } }

/-- An event that shows it is lost: the fault is raised, nothing is run, and no retry is wanted. -/
theorem garbled_event_is_lost :
    (handleEvent (⟨8, 5, ⟨300, 30⟩⟩ : Tuning ℚ) (.text "MODIFIED") garbled.toValue
        (.text Names.source) (.text Names.configNamespace)).run (handle ⟨300, 30⟩) corrupted =
      (.error (.malformed (.danglingCharacter 1)), corrupted) ∧
    corrupted.schedule.retryAt = none := by
  constructor
  · rfl
  · rfl

end Cluster

end SecretMirror
