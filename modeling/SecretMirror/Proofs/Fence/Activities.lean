import SecretMirror.Proofs.CachingContract
import SecretMirror.Proofs.Fence.Copies

/-!
# What the operator's activities ask of the cluster

`fence` is the contract between the activities of the operator and the cluster: only genuine copies
are cached, and only fenced bodies are sent as replacements, provided that what is cached is genuine
and that the server answers with what it stores.  The fence permits to cache genuine copies
(`permitsCaching_fence`), which says what look-ups bring and what is cached after a write.  Together
with the contract of the synchronisation this makes every activity keep the fence
(`behaves_activity`).
-/

namespace SecretMirror

open Operator Interleaving
open Program hiding bind ask

namespace Fence

variable {τ : Type}

/-! ## The contract with the cluster -/

/-- What an activity of the operator may ask, and what it may expect.  It caches only genuine copies
and replaces only with a fenced body; in return it gets genuine copies from the cache and sound
records from the server. -/
def fence (τ : Type) : Contract (requests τ) (Fault τ) (Set WireSecret) where
  permits versions
    | .cachePut secret => Genuine versions secret
    | .replace _ _ body => Fenced versions body
    | _ => True
  expects versions
    | .cacheGet _, a => ∀ s, a = .ok (some s) → Genuine versions s
    | .read .., a => ∀ w, a = .ok w → w ∈ versions ∧ w.IsSound
    | .create .., a => ∀ r, a = .ok r → ∃ w ∈ versions, w.IsSound ∧ r = some w
    | .replace .., a => ∀ r, a = .ok r → ∃ w ∈ versions, w.IsSound ∧ r = some w
    | _, _ => True

theorem permitsCaching_fence : (fence τ).PermitsCaching Genuine where
  free _ q hq := by
    cases q with
    | cachePut secret => exact hq.elim
    | replace space name body => exact hq.elim
    | _ => trivial
  put _ _ hs := hs
  mono hle hs := hs.mono hle

variable [Time τ]

/-- A look-up brings a genuine copy, whether it was cached or read. -/
theorem keeps_access_lookUp (rate : τ) (space name : Value) (k : Set WireSecret) :
    (Operator.lookUp rate space name).Keeps (fence τ)
      (fun l found => ∀ s, found = some s → Genuine l s) k := by
  refine permitsCaching_fence.lookUp space name
    (fun l key s _ hs => ?_) (fun l w s hw hread => ?_) rate
  · exact hs s rfl
  · obtain ⟨hmem, hsound⟩ := hw w rfl
    exact ⟨w, hmem, hsound, hread⟩

omit [Time τ] in
/-- What a write answers reads as a genuine copy. -/
theorem genuine_of_answer {versions : Set WireSecret} {raw : Option WireSecret} {secret : Secret}
    (hraw : ∃ w ∈ versions, w.IsSound ∧ raw = some w) :
    (∀ w s, raw = some w → Secret.ofWire w = .ok s → Genuine versions s) ∧
      (raw = none → Genuine versions secret) := by
  obtain ⟨w, hw, hsound, rfl⟩ := hraw
  constructor
  · rintro _ s ⟨⟩ hread
    exact ⟨w, hw, hsound, hread⟩
  · intro hnone
    cases hnone

theorem keeps_create (rate : τ) (secret : Secret) (k : Set WireSecret) :
    (Operator.create rate secret).Behaves (fence τ) k := by
  refine behaves_bind (keeps_checked fun _ _ _ _ => trivial) fun l _ body => ?_
  refine permitsCaching_fence.write (fun l₁ _ => ?_) rate
  refine keeps_request (fun _ _ => trivial) fun l₂ _ r hr l₃ h₃ => ?_
  obtain ⟨w, hw, hsound, heq⟩ := hr r rfl
  exact genuine_of_answer ⟨w, h₃ hw, hsound, heq⟩

/-- The body is made from the copy when the call has had its turn, so more may have been stored by
then.  Being genuine and being fenced only grow easier with more versions. -/
theorem keeps_update (rate : τ) {old : Secret} {data : Data} {k : Set WireSecret}
    (hold : Genuine k old) (hmarker : old.isManaged = true) :
    (Operator.update rate { old with data := some data }).Behaves (fence τ) k := by
  refine permitsCaching_fence.write (fun l₁ h₁ => ?_) rate
  refine keeps_bind (P := fun l body => Fenced l body)
    (keeps_checked fun body hbody l₂ h₂ =>
      fenced_of_managed (hold.mono (h₁.trans h₂)) hmarker data hbody) fun l₂ _ body hbody => ?_
  refine keeps_request (fun l₃ h₃ => ?_) fun l₃ _ r hr l₄ h₄ => ?_
  · obtain ⟨w, hw, hrest⟩ := hbody
    exact ⟨w, h₃ hw, hrest⟩
  · obtain ⟨w, hw, hsound, heq⟩ := hr r rfl
    exact genuine_of_answer ⟨w, h₄ hw, hsound, heq⟩

/-! ## Activities -/

theorem keeps_sync (rate : τ) (places : Sync.Places) (k : Set WireSecret) :
    (Operator.sync rate places).Behaves (fence τ) k := by
  refine keeps_interpret (d := decisions τ) (fun q l hq => ?_) (fun l q e => ?_)
    (sync_keeps_decisions places k)
  · cases q with
    | lookUp space name =>
      refine (keeps_access_lookUp rate space name l).imp fun l' _ found hfound s hs => ?_
      exact hfound s (Except.ok.inj hs)
    | create secret => exact keeps_create rate secret l
    | update secret =>
      obtain ⟨old, data, hold, hmarker, rfl⟩ := hq
      exact keeps_update rate hold hmarker
    | emit reason message => exact behaves_request fun _ _ => trivial
  · cases q with
    | lookUp space name =>
      rintro s ⟨⟩
    | _ => trivial

theorem keeps_reconcile (tuning : Tuning τ) (trigger : Value) (k : Set WireSecret) :
    (reconcile tuning trigger).Behaves (fence τ) k :=
  permitsCaching_fence.reconcile (fun l _ => keeps_sync _ _ l) trigger

/-- Whatever is done around the schedule, the cluster only sees reconciliations. -/
theorem keeps_embed (tuning : Tuning τ) (q : (Resync.requests τ).Request) (k : Set WireSecret) :
    (embed tuning q).Behaves (fence τ) k := by
  cases q with
  | schedule step => exact behaves_request fun _ _ => trivial
  | now => exact behaves_request fun _ _ => trivial
  | pause time => exact behaves_request fun _ _ => trivial
  | reconcile trigger =>
    exact behaves_bind (keeps_reconcile _ _ _) fun _ _ _ => keeps_pure fun _ _ => trivial

omit [Time τ] in
/-- A watch event that shows a stored version brings a genuine copy into the cache. -/
theorem keeps_observe (eventType name space : Value) {body : Value} {k : Set WireSecret}
    (hk : IsArchive k) (hbody : ∃ w ∈ k, body.Shows w) :
    (observe (τ := τ) eventType body name space).Behaves (fence τ) k := by
  unfold observe
  split
  · exact behaves_request fun _ _ => trivial
  · refine keeps_bind (P := fun l s => Genuine l s) (keeps_checked fun s hs l hl => ?_)
      fun l _ s hs => behaves_request fun l' hl' => hs.mono hl'
    obtain ⟨w, hw, hshows⟩ := hbody
    rw [Secret.ofBody_of_shows hshows] at hs
    exact ⟨w, hl hw, hk.sound w hw, hs⟩

theorem behaves_activity (activity : Activity τ) {k : Set WireSecret} (hk : IsArchive k)
    (hinformed : activity.IsInformedBy k) : activity.program.Behaves (fence τ) k := by
  cases activity with
  | sync rate places =>
    exact behaves_bind (keeps_sync _ _ _) fun _ _ _ => keeps_pure fun _ _ => trivial
  | reconcile tuning trigger =>
    exact behaves_bind (keeps_reconcile _ _ _) fun _ _ _ => keeps_pure fun _ _ => trivial
  | observe eventType body name space => exact keeps_observe _ _ _ hk hinformed
  | handle tuning eventType body name space =>
    exact behaves_bind (keeps_observe _ _ _ hk hinformed) fun _ _ _ =>
      behaves_interpret fun q l _ => keeps_embed tuning q l
  | tick tuning =>
    exact behaves_bind (behaves_interpret fun q l _ => keeps_embed tuning q l) fun _ _ _ =>
      keeps_pure fun _ _ => trivial

end Fence

end SecretMirror
