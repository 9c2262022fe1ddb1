import SecretMirror.Proofs.Notes
import SecretMirror.Proofs.Recovery.Outcome

/-!
# What is recorded of a synchronisation

What is told of a reconciliation is how it ended, how long it took, which writes have succeeded, and
which events were emitted (`Note.isTold`).  A synchronisation adds to this exactly what belongs to
its decision (`syncNotes`): a write that was decided is counted once and emitted once, and if
nothing is written, or the synchronisation fails, it adds nothing (`enters_sync`).

A write that was counted as a success stays without an event only if something goes wrong after the
API has carried it out.  This is excluded by `IsSmooth`: what a write is answered with can be read
and cached, and events are not refused.  Then one of three things is told of a reconciliation
(`Tells`, `enters_told`).
-/

namespace SecretMirror

open Operator
open Program hiding bind ask

/-- The record can be read as a secret, and the secret can be cached. -/
def WireSecret.Decodes (w : WireSecret) : Prop :=
  ∃ secret key, Secret.ofWire w = .ok secret ∧ secret.key = .ok key

instance (s : Secret) : Decidable (∃ key, s.key = .ok key) :=
  match s.key with
  | .ok key => .isTrue ⟨key, rfl⟩
  | .error _ => .isFalse nofun

instance (s : Secret) (key : Key) : Decidable (s.key = .ok key) :=
  match s.key with
  | .ok own => decidable_of_iff (own = key) ⟨congrArg Except.ok, Except.ok.inj⟩
  | .error _ => .isFalse nofun

instance (w : WireSecret) : Decidable w.Decodes :=
  match h : Secret.ofWire w with
  | .ok secret => decidable_of_iff (∃ key, secret.key = .ok key)
    ⟨fun ⟨key, hkey⟩ => ⟨secret, key, h, hkey⟩,
      fun ⟨_, key, hs, hkey⟩ => ⟨key, Except.ok.inj (h.symm.trans hs) ▸ hkey⟩⟩
  | .error _ => .isFalse fun ⟨_, _, hs, _⟩ => nomatch h.symm.trans hs

def Decision.operation? : Decision → Option Operation
  | .noOp _ => none
  | .create _ => some .create
  | .update _ => some .update

namespace Operator

variable {τ : Type}

/-- The surroundings go along smoothly: events are not refused, what writes are answered with can be
read and cached, and the cache takes what has a key and hands out what has the key. -/
def IsSmooth : Exchange (requests τ) (Fault τ) → Prop
  | ⟨.post _, .error _⟩ => False
  | ⟨.create .., .ok (some stored)⟩ => stored.Decodes
  | ⟨.replace .., .ok (some stored)⟩ => stored.Decodes
  | ⟨.cacheGet key, .ok (some secret)⟩ => secret.key = .ok key
  | ⟨.cachePut secret, .ok _⟩ => ∃ key, secret.key = .ok key
  | ⟨.cachePut secret, .error _⟩ => ∀ key, secret.key ≠ .ok key
  | _ => True

instance : DecidablePred (IsSmooth (τ := τ))
  | ⟨.post _, .error _⟩ => .isFalse id
  | ⟨.create .., .ok (some stored)⟩ => inferInstanceAs (Decidable stored.Decodes)
  | ⟨.replace .., .ok (some stored)⟩ => inferInstanceAs (Decidable stored.Decodes)
  | ⟨.cacheGet key, .ok (some secret)⟩ => inferInstanceAs (Decidable (secret.key = .ok key))
  | ⟨.cachePut secret, .ok _⟩ => inferInstanceAs (Decidable (∃ key, secret.key = .ok key))
  | ⟨.cachePut secret, .error _⟩ =>
    decidable_of_iff (¬ ∃ key, secret.key = .ok key) not_exists
  | ⟨.post _, .ok _⟩ | ⟨.create .., .ok none⟩ | ⟨.create .., .error _⟩
  | ⟨.replace .., .ok none⟩ | ⟨.replace .., .error _⟩ | ⟨.cacheGet _, .ok none⟩
  | ⟨.cacheGet _, .error _⟩ | ⟨.now, _⟩ | ⟨.sleep _, _⟩ | ⟨.lastCall, _⟩ | ⟨.recordCall _, _⟩
  | ⟨.cacheForget .., _⟩ | ⟨.read .., _⟩ | ⟨.clusterConfig, _⟩ | ⟨.fileConfig, _⟩
  | ⟨.measure _, _⟩ | ⟨.log _, _⟩ | ⟨.schedule _, _⟩ => .isTrue trivial

def IsBenign (x : Exchange (requests τ) (Fault τ)) : Prop := IsReliable x ∧ IsSmooth x

theorem IsBenign.isReliable {x : Exchange (requests τ) (Fault τ)} (h : IsBenign x) : IsReliable x :=
  h.1

/-! ## What is told -/

/-- The update counts a reconciliation, an error, or a write that has succeeded.  Writes that have
failed and calls of the API are left out. -/
def isCount (update : Metrics.Update τ) : Bool :=
  match update.series with
  | ⟨.reconciliations, _⟩ => true
  | ⟨.errors, _⟩ => true
  | ⟨.writes, [_, result]⟩ => result == "success"
  | _ => false

/-- The note tells how a reconciliation ended, how long it took, that a write has succeeded, or that
an event was emitted. -/
def Note.isTold : Note τ → Bool
  | .measured update => isCount update || update.series.metric = .reconciliationTime
  | .logged _ => false
  | .emitted _ => true

abbrev told : Exchange (requests τ) (Fault τ) → Option (Note τ) := noted Note.isTold

theorem leavesNo_told_of_isRoutine {q : Request τ} (hq : q.IsRoutine) :
    q.LeavesNo Note.isTold := by
  refine hq.leavesNo fun update h => ?_
  obtain ⟨metric, labels, hseries⟩ : ∃ metric labels, update.series = ⟨metric, labels⟩ :=
    ⟨_, _, rfl⟩
  rw [hseries] at h
  rw [Note.isTold, isCount, hseries]
  rcases h with rfl | rfl
  · rfl
  · rfl

/-- Nothing is told of routine, so it may go before. -/
theorem enters_bind_of_asksRoutine {α β : Type} {p : Task τ α} {f : α → Task τ β}
    {Q : List (Note τ) → Except (Fault τ) β → Prop} (hp : AsksRoutine p)
    (hok : ∀ a, (f a).Enters IsBenign told Q) (herror : ∀ fault, Q [] (.error fault)) :
    (p >>= f).Enters IsBenign told Q :=
  hp.enters_bind (fun _ hx => noted_eq_none (leavesNo_told_of_isRoutine hx)) hok herror

/-- The notes belong to the result: they are those of a success, or there are none. -/
def AreOf {α : Type} (notes : α → List (Note τ)) : List (Note τ) → Except (Fault τ) α → Prop
  | es, .ok a => es = notes a
  | es, .error _ => es = []

/-! ## Single requests -/

theorem enters_cachePut {secret : Secret} (hkey : ∃ key, secret.key = .ok key) :
    (ask (.cachePut secret)).Enters IsBenign (told (τ := τ)) fun es r => es = [] ∧ r = .ok () := by
  refine enters_request fun a ha => ⟨rfl, ?_⟩
  obtain ⟨key, hkey⟩ := hkey
  cases a with
  | ok done => rfl
  | error fault => exact absurd hkey (ha.2 key)

theorem enters_post (event : Event) : (ask (.post event)).Enters IsBenign (told (τ := τ))
    fun es r => es = [.emitted event] ∧ r = .ok () := by
  refine enters_request fun a ha => ?_
  cases a with
  | ok done => exact ⟨rfl, rfl⟩
  | error fault => exact ha.2.elim

/-! ## Looking secrets up -/

variable [Time τ]

theorem enters_takeIn (raw : WireSecret) : (takeIn raw).Enters IsBenign (told (τ := τ))
    fun es r => es = [] ∧ ∀ s, r = .ok (some s) → ∃ key, s.key = .ok key := by
  refine enters_bind_of_asksRoutine (asksRoutine_count rfl) (fun _ => ?_) fun _ => ⟨rfl, nofun⟩
  refine enters_checked_bind (fun secret _ => ?_) fun _ => ⟨rfl, nofun⟩
  refine enters_bind (P := fun es r => es = [] ∧ (r = .ok () → ∃ key, secret.key = .ok key))
    (enters_request fun a ha => ⟨rfl, ?_⟩) ?_ ?_
  · rintro rfl
    exact ha.2
  · rintro _ _ ⟨rfl, hkey⟩
    refine enters_done ⟨rfl, fun s hs => ?_⟩
    cases hs
    exact hkey rfl
  · rintro _ _ ⟨rfl, -⟩
    exact ⟨rfl, nofun⟩

/-- What is found has a key, and nothing is told of the look-up. -/
theorem enters_lookUp (rate : τ) (space name : Value) :
    (lookUp rate space name).Enters IsBenign told
      fun es r => es = [] ∧ ∀ s, r = .ok (some s) → ∃ key, s.key = .ok key := by
  refine enters_checked_bind (fun key _ => ?_) fun _ => ⟨rfl, nofun⟩
  refine enters_bind (P := fun es r => es = [] ∧ ∀ s, r = .ok (some s) → s.key = .ok key)
    (enters_request fun a ha => ⟨rfl, ?_⟩) ?_ ?_
  · rintro s rfl
    exact ha.2
  · rintro _ cached ⟨rfl, hcached⟩
    cases cached with
    | some secret =>
      refine enters_bind_of_asksRoutine (asksRoutine_count rfl) (fun _ => ?_) fun _ => ⟨rfl, nofun⟩
      refine enters_done ⟨rfl, fun s hs => ?_⟩
      cases hs
      exact ⟨key, hcached secret rfl⟩
    | none =>
      have hread : (readThrough rate space name).AsksOnly (Request.LeavesNo Note.isTold) :=
        asksOnly_readThrough (fun _ => leavesNo_told_of_isRoutine) (fun _ => trivial) rate trivial
      refine hread.enters_bind (fun _ => noted_eq_none) (fun found => ?_) fun _ => ⟨rfl, nofun⟩
      cases found with
      | none => exact enters_done ⟨rfl, nofun⟩
      | some raw => exact enters_takeIn raw
  · rintro _ _ ⟨rfl, -⟩
    exact ⟨rfl, nofun⟩

/-! ## Writing -/

theorem enters_writeFailure (operation : Operation) (secret : Secret) (fault : Fault τ) :
    (writeFailure operation secret fault).Enters IsBenign told
      fun es r => es = [] ∧ ∃ e, r = .error e := by
  refine enters_bind_of_asksRoutine (asksRoutine_count rfl) (fun _ => ?_) fun e => ⟨rfl, e, rfl⟩
  refine enters_bind (enters_measure (fun _ => IsBenign.isReliable) _) ?_ ?_
  · rintro _ _ ⟨rfl, -⟩
    refine enters_bind_of_asksRoutine (asksRoutine_ask trivial) (fun _ => ?_)
      fun e => ⟨rfl, e, rfl⟩
    exact enters_done ⟨rfl, fault, rfl⟩
  · rintro _ _ ⟨-, ⟨⟩⟩

def Operation.success (operation : Operation) : Note τ :=
  .measured (.add (.writes operation.name "success") 1)

/-- A write that was answered with what can be read and cached has succeeded. -/
theorem enters_concludeWrite (operation : Operation) {secret : Secret}
    (hkey : ∃ key, secret.key = .ok key) {raw : Option WireSecret}
    (hraw : ∀ w, raw = some w → w.Decodes) :
    (concludeWrite operation secret raw).Enters IsBenign (told (τ := τ))
      (AreOf fun _ => [operation.success]) := by
  have hcaches : ∀ stored : Secret, (∃ key, stored.key = .ok key) → (do
      ask (.cachePut stored)
      return stored : Task τ Secret).Enters IsBenign told
        fun es r => es = [] ∧ r = .ok stored := by
    refine fun stored hstored => enters_bind (enters_cachePut hstored) ?_ ?_
    · rintro _ _ ⟨rfl, -⟩
      exact enters_done ⟨rfl, rfl⟩
    · rintro _ _ ⟨-, ⟨⟩⟩
  refine enters_bind_of_asksRoutine (asksRoutine_count rfl) (fun _ => ?_) fun _ => rfl
  refine enters_bind (enters_measure (fun _ => IsBenign.isReliable) _) ?_ ?_
  · rintro _ _ ⟨rfl, -⟩
    cases raw with
    | none =>
      refine (hcaches secret hkey).imp ?_
      rintro _ _ ⟨rfl, rfl⟩
      rfl
    | some w =>
      obtain ⟨stored, key, hstored, hkey⟩ := hraw w rfl
      show Enters _ _ (checked (Secret.ofWire w) >>= fun stored => do
        ask (.cachePut stored)
        return stored) _
      rw [hstored]
      refine (hcaches stored ⟨key, hkey⟩).imp ?_
      rintro _ _ ⟨rfl, rfl⟩
      rfl
  · rintro _ _ ⟨-, ⟨⟩⟩

/-- Nothing is told of a call, and what it is answered with can be read and cached. -/
def Returns (es : List (Note τ)) (r : Except (Fault τ) (Option WireSecret)) : Prop :=
  es = [] ∧ ∀ w, r = .ok (some w) → w.Decodes

/-- A write succeeds and this is told, or it fails and nothing is told. -/
theorem enters_write (rate : τ) (operation : Operation) {secret : Secret}
    (hkey : ∃ key, secret.key = .ok key) {call : Task τ (Option WireSecret)}
    (hcall : call.Enters IsBenign told Returns) :
    (write rate operation secret call).Enters IsBenign told
      (AreOf fun _ => [operation.success]) := by
  have hspaced : (spaced rate call).Enters IsBenign told Returns := by
    have hturn : (takeTurn rate).AsksOnly (Request.LeavesNo Note.isTold) :=
      asksOnly_takeTurn (fun _ => leavesNo_told_of_isRoutine) (fun _ => trivial) rate
    exact hturn.enters_bind (fun _ => noted_eq_none) (fun _ => hcall) fun _ => ⟨rfl, nofun⟩
  have hrecovered : ((spaced rate call).recover (writeFailure operation secret)).Enters IsBenign
      told Returns := by
    refine enters_recover hspaced (fun _ _ h => h) ?_
    rintro _ fault ⟨rfl, -⟩
    refine (enters_writeFailure operation secret fault).imp ?_
    rintro _ _ ⟨rfl, e, rfl⟩
    exact ⟨rfl, nofun⟩
  refine enters_bind_of_asksRoutine (asksRoutine_ask trivial) (fun start => ?_) fun _ => rfl
  refine enters_bind (P := Returns) (enters_always hrecovered ?_) ?_ ?_
  · rintro _ _ ⟨rfl, hr⟩
    refine (enters_measureSince (fun _ => IsBenign.isReliable) start _).imp ?_
    rintro _ _ ⟨⟨time, rfl⟩, rfl⟩
    exact ⟨rfl, rfl, hr⟩
  · rintro _ raw ⟨rfl, hraw⟩
    exact enters_concludeWrite operation hkey fun w hw => hraw w (congrArg Except.ok hw)
  · rintro _ _ ⟨rfl, -⟩
    rfl

theorem enters_create (rate : τ) {secret : Secret} (hkey : ∃ key, secret.key = .ok key) :
    (create rate secret).Enters IsBenign told (AreOf fun _ => [Operation.create.success]) := by
  refine enters_checked_bind (fun body _ => ?_) fun _ => rfl
  refine enters_write rate .create hkey (enters_request fun a ha => ⟨rfl, ?_⟩)
  rintro w rfl
  exact ha.2

theorem enters_update (rate : τ) {secret : Secret} (hkey : ∃ key, secret.key = .ok key) :
    (update rate secret).Enters IsBenign told (AreOf fun _ => [Operation.update.success]) := by
  refine enters_write rate .update hkey ?_
  refine enters_checked_bind (fun body _ => ?_) fun _ => ⟨rfl, nofun⟩
  refine enters_request fun a ha => ⟨rfl, ?_⟩
  rintro w rfl
  exact ha.2

/-! ## Synchronising -/

/-- What is told of a decision that was carried out: a write has succeeded and was emitted, if one
was decided. -/
def syncNotes (decision : Decision) : List (Note τ) :=
  decision.operation?.toList.map Operation.success ++ decision.events.map .emitted

/-- What was decided is told if it was done. -/
theorem enters_perform (rate : τ) {decision : Decision}
    (hkey : ∀ secret, decision.secret? = some secret → ∃ key, secret.key = .ok key) :
    (perform rate {} decision).Enters IsBenign told (AreOf fun _ => syncNotes decision) := by
  cases decision with
  | noOp why => exact enters_done rfl
  | create secret =>
    rw [perform_create]
    refine enters_bind (enters_create rate (hkey secret rfl)) ?_ fun _ _ h => h
    rintro _ stored rfl
    refine (enters_post _).imp ?_
    rintro _ _ ⟨rfl, rfl⟩
    rfl
  | update secret =>
    rw [perform_update]
    refine enters_bind (enters_update rate (hkey secret rfl)) ?_ fun _ _ h => h
    rintro _ stored rfl
    refine (enters_post _).imp ?_
    rintro _ _ ⟨rfl, rfl⟩
    rfl

/-- A synchronisation tells of its decision, or of nothing if it fails. -/
theorem enters_sync (rate : τ) : (sync rate {}).Enters IsBenign told (AreOf syncNotes) := by
  rw [sync_eq]
  refine enters_bind (enters_lookUp rate _ _) ?_ ?_
  · rintro _ source? ⟨rfl, hsource⟩
    cases source? with
    | none => exact enters_done rfl
    | some source =>
      refine enters_bind (enters_lookUp rate _ _) ?_ ?_
      · rintro _ target? ⟨rfl, htarget⟩
        refine enters_checked_bind (fun decision hdecision => ?_) fun _ => rfl
        have hkey : ∀ secret, decision.secret? = some secret → ∃ key, secret.key = .ok key :=
          fun secret => Cluster.exists_key_of_decides (decides_of_decide hdecision)
            (fun s hs => hsource s (congrArg Except.ok hs))
            fun t ht => htarget t (congrArg Except.ok ht)
        refine enters_bind (enters_perform rate hkey) ?_ fun _ _ h => h
        rintro _ _ rfl
        refine enters_done ?_
        rw [List.append_nil]
        rfl
      · rintro _ _ ⟨rfl, -⟩
        rfl
  · rintro _ _ ⟨rfl, -⟩
    rfl

/-! ## Reconciling -/

/-- What may be told of a reconciliation for a reason. -/
inductive Tells (trigger : String) : List (Note τ) → Prop where
  /-- The client was not configured. -/
  | nothing : Tells trigger []
  /-- The synchronisation has failed. -/
  | failed (typeName : String) (time : τ) :
    Tells trigger [.measured (.add (.reconciliations trigger "error") 1),
      .measured (.add (.errors typeName) 1), .measured (.add (.reconciliationTime trigger) time)]
  /-- The decision was carried out. -/
  | finished (decision : Decision) (time : τ) :
    Tells trigger (syncNotes decision ++ [.measured (.add (.reconciliationTime trigger) time),
      .measured (.add (.reconciliations trigger (resultName decision.action)) 1)])

/-- However a reconciliation ends, one of the three is told of it. -/
theorem enters_told (tuning : Tuning τ) (trigger : String) :
    (reconcile tuning (.text trigger)).Enters IsBenign told fun es _ => Tells trigger es := by
  have hconnect : (connect (τ := τ)).AsksOnly (Request.LeavesNo Note.isTold) :=
    asksOnly_connect trivial trivial
  refine hconnect.enters_bind (fun _ => noted_eq_none) (fun _ => ?_) fun _ => .nothing
  have haccounts := enters_reconcileConnected (fun _ => IsBenign.isReliable)
    (enters_sync tuning.rate) trigger
  refine haccounts.imp fun es r h => ?_
  cases h with
  | failed time hsync =>
    subst hsync
    exact .failed _ time
  | finished time hsync =>
    subst hsync
    exact .finished _ time

end Operator

end SecretMirror
