import SecretMirror.Proofs.Bookkeeping

/-!
# What look-ups and writes put into the cache

Look-ups and writes put copies of secrets into the cache.  They keep every contract that permits
what is neither a write nor put into the cache (`Contract.PermitsCaching`), provided that it also
permits to cache the secrets with some property `holds`, and that what the cache and the server
answer has this property.  Then the secret that a look-up finds has it as well
(`PermitsCaching.lookUp`).  What is sent by a write is up to the contract itself, so
`PermitsCaching.write` is about any call.  A reconciliation keeps such a contract if its
synchronisation does (`PermitsCaching.reconcile`).
-/

namespace SecretMirror

open Operator
open Program hiding bind ask

namespace Operator.Request

variable {τ : Type} {q : Operator.Request τ}

/-- The request writes nothing, emits nothing and puts nothing into the cache, so a contract about
copies of secrets has no reason to forbid it. -/
def IsFree : Operator.Request τ → Prop
  | .cachePut _ => False
  | .create .. => False
  | .replace .. => False
  | .post _ => False
  | _ => True

theorem IsInert.isFree (h : q.IsInert) : q.IsFree := by
  cases q <;> first | exact trivial | exact h

theorem IsFree.isHarmless (h : q.IsFree) : q.IsHarmless := by
  cases q <;> first | exact trivial | exact h

end Operator.Request

/-- A contract that permits whatever is free, and to cache what has a property.  The property may
depend on what is known, and it is not lost when more is known. -/
structure Contract.PermitsCaching {τ K : Type} [Preorder K] (c : Contract (requests τ) (Fault τ) K)
    (holds : K → Secret → Prop) : Prop where
  free : ∀ k q, Request.IsFree q → c.permits k q
  put : ∀ k s, holds k s → c.permits k (.cachePut s)
  mono : ∀ {k l s}, k ≤ l → holds k s → holds l s

namespace Contract.PermitsCaching

variable {τ K α : Type} [Preorder K] {c : Contract (requests τ) (Fault τ) K}
  {holds : K → Secret → Prop} {k : K}

theorem asks (hc : c.PermitsCaching holds) {p : Task τ α} (hp : p.AsksOnly Request.IsFree) :
    p.Behaves c k :=
  hp.behaves (fun k q hq => hc.free k q hq) k

theorem ask (hc : c.PermitsCaching holds) {q : Request τ} (hq : q.IsFree) :
    (Operator.ask q).Behaves c k :=
  behaves_request fun l _ => hc.free l q hq

theorem isBookkeeping (hc : c.PermitsCaching holds) {p : Task τ α} (hp : IsBookkeeping p) :
    p.Behaves c k :=
  hc.asks (hp.imp fun _ hq => hq.isFree)

variable [Time τ]

theorem spaced (hc : c.PermitsCaching holds) {P : K → α → Prop} {rate : τ} {call : Task τ α}
    (hcall : call.Keeps c P k) : (Operator.spaced rate call).Keeps c P k := by
  have hturn : (takeTurn rate).AsksOnly Request.IsFree :=
    asksOnly_takeTurn (fun _ hq => hq.isInert.isFree) (fun _ => trivial) rate
  rw [Operator.spaced]
  exact behaves_bind (hc.asks hturn) fun l hl _ => hcall.later hl

/-- What is read through the API is what the server may answer. -/
theorem readThrough (hc : c.PermitsCaching holds) {R : K → WireSecret → Prop} (space name : Value)
    (hmono : ∀ {k l w}, k ≤ l → R k w → R l w)
    (hread : ∀ l w, c.expects l (.read space name) (.ok w) → R l w) (rate : τ) :
    (Operator.readThrough rate space name).Keeps c (fun l found => ∀ w, found = some w → R l w)
      k := by
  have hcall : ∀ l, (Operator.ask (.read space name) : Task τ WireSecret).Keeps c R l := fun l =>
    keeps_request (fun _ _ => hc.free _ _ trivial) fun l _ w hw l' hl' => hmono hl' (hread l w hw)
  unfold Operator.readThrough
  refine behaves_bind (hc.ask trivial) fun l _ start => ?_
  refine keeps_always (keeps_recover ?_ fun l' _ fault => ?_) fun l' _ =>
    hc.isBookkeeping (isBookkeeping_measureSince _ _)
  · refine keeps_bind (hc.spaced (hcall l)) fun l' _ w hw => ?_
    refine keeps_pure fun l'' hl'' w' hw' => ?_
    rw [← Option.some.inj hw']
    exact hmono hl'' hw
  · unfold readFailure
    split
    · split
      · refine behaves_bind (hc.isBookkeeping (isBookkeeping_count _)) fun _ _ _ => ?_
        exact keeps_pure fun _ _ _ hnone => by cases hnone
      · exact behaves_bind (hc.isBookkeeping (isBookkeeping_count _)) fun _ _ _ => keeps_fail
    · exact keeps_fail

/-- What is taken in has a property if what was read has it; and it is cached. -/
theorem finds_takeIn (hc : c.PermitsCaching holds) {P : K → Secret → Prop}
    (hmono : ∀ {k l s}, k ≤ l → P k s → P l s) {raw : WireSecret}
    (hraw : ∀ s, Secret.ofWire raw = .ok s → holds k s ∧ P k s) :
    (Operator.takeIn (τ := τ) raw).Keeps c (fun l found => ∀ s, found = some s → P l s) k := by
  unfold Operator.takeIn
  refine behaves_bind (hc.isBookkeeping (isBookkeeping_count _)) fun l₁ h₁ _ => ?_
  refine keeps_bind (P := fun l s => holds l s ∧ P l s)
    (keeps_checked fun s hs l₂ h₂ => ?_) fun l₂ _ s hs => ?_
  · obtain ⟨hheld, hP⟩ := hraw s hs
    exact ⟨hc.mono (le_trans h₁ h₂) hheld, hmono (le_trans h₁ h₂) hP⟩
  refine behaves_bind (behaves_request fun l₃ h₃ => hc.put l₃ s (hc.mono h₃ hs.1)) fun l₃ h₃ _ => ?_
  refine keeps_pure fun l₄ h₄ s' hs' => ?_
  rw [← Option.some.inj hs']
  exact hmono (le_trans h₃ h₄) hs.2

/-- What a look-up finds has a property that everything has that may be cached or read.  Only what
was read is cached again, so a copy from the cache does not become newer by being found. -/
theorem finds_lookUp (hc : c.PermitsCaching holds) {P : K → Secret → Prop}
    (hmono : ∀ {k l s}, k ≤ l → P k s → P l s) (space name : Value)
    (hcached : ∀ l key s, Key.ofValues space name = .ok key →
      c.expects l (.cacheGet key) (.ok (some s)) → P l s)
    (hread : ∀ l w s, c.expects l (.read space name) (.ok w) → Secret.ofWire w = .ok s →
      holds l s ∧ P l s) (rate : τ) :
    (Operator.lookUp rate space name).Keeps c (fun l found => ∀ s, found = some s → P l s) k := by
  unfold Operator.lookUp
  refine keeps_bind (P := fun _ key => Key.ofValues space name = .ok key)
    (keeps_checked fun key hkey _ _ => hkey) fun l _ key hkey => ?_
  have hget : (Operator.ask (.cacheGet key) : Task τ (Option Secret)).Keeps c
      (fun l found => ∀ s, found = some s → P l s) l :=
    keeps_request (fun _ _ => hc.free _ _ trivial) fun l _ a ha l' hl' s hs =>
      hmono hl' (hcached l key s hkey (by rw [← hs]; exact ha))
  refine keeps_bind hget fun l₂ _ cached hheld => ?_
  cases cached with
  | some secret =>
    refine behaves_bind (hc.isBookkeeping (isBookkeeping_count _)) fun l₃ h₃ _ => ?_
    exact keeps_pure fun l₄ h₄ s hs => hmono (le_trans h₃ h₄) (hheld s hs)
  | none =>
    have hthrough := hc.readThrough (k := l₂) (R := fun l w => ∀ s, Secret.ofWire w = .ok s →
      holds l s ∧ P l s) space name
      (fun hle hw s hs => ⟨hc.mono hle (hw s hs).1, hmono hle (hw s hs).2⟩)
      (fun l w hw s => hread l w s hw) rate
    refine keeps_bind hthrough fun l₃ _ found hfound => ?_
    cases found with
    | none => exact keeps_pure fun _ _ _ hnone => by cases hnone
    | some raw => exact hc.finds_takeIn (P := P) hmono (hfound raw rfl)

theorem lookUp (hc : c.PermitsCaching holds) (space name : Value)
    (hcached : ∀ l key s, Key.ofValues space name = .ok key →
      c.expects l (.cacheGet key) (.ok (some s)) → holds l s)
    (hread : ∀ l w s, c.expects l (.read space name) (.ok w) → Secret.ofWire w = .ok s →
      holds l s) (rate : τ) :
    (Operator.lookUp rate space name).Keeps c (fun l found => ∀ s, found = some s → holds l s)
      k :=
  hc.finds_lookUp (P := holds) hc.mono space name hcached
    (fun l w s hw hs => ⟨hread l w s hw hs, hread l w s hw hs⟩) rate

/-- A write is concluded by caching the answer, or the secret as it was sent if there is none. -/
theorem concludeWrite (hc : c.PermitsCaching holds) {operation : Operation} {secret : Secret}
    {raw : Option WireSecret}
    (hanswered : ∀ w s, raw = some w → Secret.ofWire w = .ok s → holds k s)
    (hsent : raw = none → holds k secret) :
    (Operator.concludeWrite (τ := τ) operation secret raw).Behaves c k := by
  have hcaches : ∀ l stored, holds l stored → (do
      Operator.ask (.cachePut stored)
      return stored : Task τ Secret).Behaves c l := fun l stored hstored =>
    behaves_bind (behaves_request fun l' hl' => hc.put l' stored (hc.mono hl' hstored))
      fun _ _ _ => keeps_pure fun _ _ => trivial
  unfold Operator.concludeWrite
  refine behaves_bind (hc.isBookkeeping (isBookkeeping_count _)) fun l₁ h₁ _ => ?_
  refine behaves_bind (hc.isBookkeeping (isBookkeeping_count _)) fun l₂ h₂ _ => ?_
  have hle : k ≤ l₂ := le_trans h₁ h₂
  cases raw with
  | none => exact hcaches l₂ secret (hc.mono hle (hsent rfl))
  | some w =>
    refine keeps_bind (P := holds) (keeps_checked fun s hs l₃ h₃ => ?_) fun l₃ _ s hs => ?_
    · exact hc.mono (le_trans hle h₃) (hanswered w s rfl hs)
    · exact hcaches l₃ s hs

/-- After a write the answer is cached, or the secret as it was sent. -/
theorem write (hc : c.PermitsCaching holds) {operation : Operation} {secret : Secret}
    {call : Task τ (Option WireSecret)}
    (hcall : ∀ l, k ≤ l → call.Keeps c (fun l raw =>
      (∀ w s, raw = some w → Secret.ofWire w = .ok s → holds l s) ∧
        (raw = none → holds l secret)) l) (rate : τ) :
    (Operator.write rate operation secret call).Behaves c k := by
  unfold Operator.write
  refine behaves_bind (hc.ask trivial) fun l h start => ?_
  refine keeps_bind (keeps_always (keeps_recover (hc.spaced (hcall l h)) fun _ _ fault => ?_)
    fun _ _ => hc.isBookkeeping (isBookkeeping_measureSince _ _)) fun l₂ _ raw hraw => ?_
  · unfold writeFailure
    refine behaves_bind (hc.isBookkeeping (isBookkeeping_count _)) fun _ _ _ => ?_
    refine behaves_bind (hc.isBookkeeping (isBookkeeping_count _)) fun _ _ _ => ?_
    exact behaves_bind (hc.ask trivial) fun _ _ _ => keeps_fail
  · exact hc.concludeWrite hraw.1 hraw.2

/-- Around a synchronisation, a reconciliation does nothing but bookkeeping, so it keeps the
contract as the synchronisation does. -/
theorem reconcile (hc : c.PermitsCaching holds) {tuning : Tuning τ}
    (hsync : ∀ l, k ≤ l → (Operator.sync tuning.rate {}).Behaves c l) (trigger : Value) :
    (Operator.reconcile tuning trigger).Behaves c k := by
  unfold Operator.reconcile Operator.reconcileConnected
  refine behaves_bind (hc.isBookkeeping isBookkeeping_connect) fun l₁ h₁ _ => ?_
  refine behaves_bind (hc.ask trivial) fun l₂ h₂ start => ?_
  refine behaves_bind (keeps_always (keeps_recover (hsync l₂ (le_trans h₁ h₂)) fun l _ fault => ?_)
    fun _ _ => hc.isBookkeeping (isBookkeeping_measureSince _ _)) fun _ _ decision => ?_
  · refine behaves_bind (hc.isBookkeeping (isBookkeeping_recordFailure _ _)) fun _ _ _ => ?_
    exact hc.isBookkeeping (isBookkeeping_passOn _ _ _)
  · refine behaves_bind (hc.isBookkeeping (isBookkeeping_recordSuccess _ _)) fun _ _ _ => ?_
    exact keeps_pure fun _ _ => trivial

end Contract.PermitsCaching

/-- A look-up writes nothing and emits nothing. -/
theorem Operator.asksOnly_lookUp {τ : Type} [Time τ] {P : Operator.Request τ → Prop}
    (hharmless : ∀ q, Request.IsHarmless q → P q) (rate : τ) (space name : Value) :
    (lookUp rate space name).AsksOnly P := by
  have hc : (Contract.only P : Contract (requests τ) (Fault τ) Unit).PermitsCaching
      fun _ _ => True := by
    refine ⟨fun _ q hq => ?_, fun _ s _ => ?_, fun _ _ => trivial⟩
    · exact hharmless q hq.isHarmless
    · exact hharmless (.cachePut s) trivial
  have hlookUp := hc.lookUp (k := ()) space name (fun _ _ _ _ _ => trivial)
    (fun _ _ _ _ _ => trivial) rate
  exact hlookUp.imp fun _ _ _ _ => trivial

end SecretMirror
