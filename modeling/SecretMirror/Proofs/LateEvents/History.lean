import SecretMirror.Cluster
import SecretMirror.Proofs.Interference
import SecretMirror.Proofs.CacheView
import SecretMirror.Proofs.CachingContract
import SecretMirror.Proofs.Deciding
import SecretMirror.Proofs.Recovery.Frame

/-!
# A canonical secret with a history

A `History` is a cluster together with the versions of the canonical secret that its owner has
stored so far, in order.  While the operator runs, others act (`History.Interferes`): the owner
stores another version or takes the secret away, other secrets change, time passes, and calls begin
or cease to fail.  None of them touches the cache.

`History.Advances` compares two states between which nothing has come into the place of the
canonical secret in the cache.  So it is with everything that others do, and with every request of
the operator but one: to cache a copy of the canonical secret.  For writes this takes that they are
about another secret (`advances_write`).
-/

namespace SecretMirror

open Operator
open Program hiding bind ask

/-- What is stored is about the secret under the key, as its metadata tell. -/
def WireSecret.IsAbout (w : WireSecret) (key : Key) : Prop :=
  Key.ofValues w.metadata.space w.metadata.name = .ok key

/-- A cluster, and the versions of the canonical secret in the order in which they were stored.  The
versions are kept beside the cluster and are read by nobody. -/
structure History (τ : Type) where
  cluster : Cluster τ
  versions : List WireSecret := []

namespace History

variable {τ : Type} {h h' h'' : History τ}

abbrev cached? (h : History τ) (key : Key) : Option (Entry τ) := h.cluster.cache.find? key

abbrev stored? (h : History τ) (key : Key) : Option WireSecret := h.cluster.server.objects key

/-- Everything is where it belongs, and a canonical secret that is stored is its last version. -/
structure IsSound (h : History τ) : Prop where
  canonical : ∀ w ∈ h.versions, w.IsAbout .source
  current : ∀ w, h.stored? .source = some w → h.versions.getLast? = some w
  stored : ∀ key w, h.stored? key = some w → w.IsAbout key
  cached : ∀ key e, h.cached? key = some e → e.secret.key = .ok key

/-- What others may do.  None of it touches the cache, which the operator has for itself. -/
inductive Interferes : History τ → History τ → Prop where
  /-- The owner stores a version of the canonical secret. -/
  | publishes (h : History τ) {w : WireSecret} (habout : w.IsAbout .source) :
    Interferes h {
      cluster := { h.cluster with server := h.cluster.server.set .source (some w) }
      versions := h.versions ++ [w] }
  /-- The owner takes the canonical secret away. -/
  | withdraws (h : History τ) :
    Interferes h { h with
      cluster := { h.cluster with server := h.cluster.server.delete .source } }
  /-- Somebody changes other secrets. -/
  | elsewhere (h : History τ) {server : Cluster.Server}
    (hsource : server.objects .source = h.stored? .source)
    (habout : ∀ key w, server.objects key = some w → w.IsAbout key) :
    Interferes h { h with cluster := { h.cluster with server := server } }
  /-- Neither the server nor the cache changes, but time may pass, and calls that failed may
  succeed, or the other way round. -/
  | meanwhile (h : History τ) {cluster : Cluster τ} (hserver : cluster.server = h.cluster.server)
    (hcache : cluster.cache = h.cluster.cache) : Interferes h { h with cluster := cluster }

/-- Answers a request of the operator, which stores no version of the canonical secret. -/
def handle [Time τ] (timing : Resync.Timing τ) (q : (requests τ).Request) (h : History τ) :
    Except (Fault τ) ((requests τ).Answer q) × History τ :=
  ((Cluster.handle timing q h.cluster).1,
    { h with cluster := (Cluster.handle timing q h.cluster).2 })

/-- More versions may have been stored, and no copy of the canonical secret has been cached.  One
that was cached may be gone. -/
structure Advances (h h' : History τ) : Prop where
  versions : h.versions <+: h'.versions
  sound : h.IsSound → h'.IsSound
  cached : ∀ e, h'.cached? .source = some e → h.cached? .source = some e

namespace Advances

theorem refl (h : History τ) : h.Advances h := ⟨List.prefix_rfl, id, fun _ he => he⟩

theorem trans (h₁ : h.Advances h') (h₂ : h'.Advances h'') : h.Advances h'' where
  versions := h₁.versions.trans h₂.versions
  sound hs := h₂.sound (h₁.sound hs)
  cached e he := h₁.cached e (h₂.cached e he)

theorem of_cluster {cluster : Cluster τ} (hserver : cluster.server = h.cluster.server)
    (hcached : ∀ key e, cluster.cache.find? key = some e → h.cached? key = some e) :
    h.Advances { h with cluster := cluster } where
  versions := List.prefix_rfl
  sound hs := by
    refine ⟨hs.canonical, ?_, ?_, fun key e he => hs.cached key e (hcached key e he)⟩
    · intro w hw
      exact hs.current w (by rw [stored?, ← hserver]; exact hw)
    · intro key w hw
      exact hs.stored key w (by rw [stored?, ← hserver]; exact hw)
  cached e he := hcached .source e he

theorem of_stored {cluster : Cluster τ} {key : Key} {w : WireSecret} (hkey : key ≠ .source)
    (habout : w.IsAbout key)
    (hserver : ∀ other, cluster.server.objects other =
      if other = key then some w else h.stored? other)
    (hcache : cluster.cache = h.cluster.cache) : h.Advances { h with cluster := cluster } where
  versions := List.prefix_rfl
  sound hs := by
    refine ⟨hs.canonical, ?_, ?_, ?_⟩
    · intro v hv
      refine hs.current v ?_
      have hsource : cluster.server.objects .source = some v := hv
      rw [hserver, if_neg hkey.symm] at hsource
      exact hsource
    · intro other v hv
      have hother : cluster.server.objects other = some v := hv
      rw [hserver] at hother
      split at hother
      · next heq =>
        cases hother
        rw [heq]
        exact habout
      · exact hs.stored other v hother
    · intro other e he
      refine hs.cached other e ?_
      rw [cached?, ← hcache]
      exact he
  cached e he := by
    rw [cached?, ← hcache]
    exact he

end Advances

/-- What is known of a history is known of whatever it becomes. -/
instance : Preorder (History τ) where
  le := Advances
  le_refl := Advances.refl
  le_trans _ _ _ := Advances.trans

theorem Interferes.advances (hinterferes : h.Interferes h') : h.Advances h' := by
  -- Nothing that others do touches the cache, so only the store and the versions have to be
  -- compared.
  cases hinterferes with
  | @publishes w habout =>
    refine ⟨List.prefix_append _ _, fun hs => ⟨?_, ?_, ?_, hs.cached⟩, fun e he => he⟩
    · intro v hv
      rcases List.mem_append.1 hv with hv | hv
      · exact hs.canonical v hv
      · rw [List.mem_singleton.1 hv]
        exact habout
    · intro v hv
      have hlast : (h.versions ++ [w]).getLast? = some w := List.getLast?_concat
      have hstored : (h.cluster.server.set .source (some w)).objects .source = some v := hv
      rw [Cluster.Server.objects_set, if_pos rfl] at hstored
      rw [← hstored]
      exact hlast
    · intro key v hv
      have hstored : (h.cluster.server.set .source (some w)).objects key = some v := hv
      rw [Cluster.Server.objects_set] at hstored
      split at hstored
      · next heq =>
        cases hstored
        rw [heq]
        exact habout
      · exact hs.stored key v hstored
  | withdraws =>
    refine ⟨List.prefix_rfl, fun hs => ⟨hs.canonical, ?_, ?_, hs.cached⟩, fun e he => he⟩
    · intro v hv
      have hstored : (h.cluster.server.delete .source).objects .source = some v := hv
      rw [Cluster.Server.delete, Cluster.Server.objects_set, if_pos rfl] at hstored
      cases hstored
    · intro key v hv
      have hstored : (h.cluster.server.delete .source).objects key = some v := hv
      rw [Cluster.Server.delete, Cluster.Server.objects_set] at hstored
      split at hstored
      · cases hstored
      · exact hs.stored key v hstored
  | @elsewhere server hsource habout =>
    refine ⟨List.prefix_rfl, fun hs => ⟨hs.canonical, ?_, habout, hs.cached⟩, fun e he => he⟩
    intro v hv
    exact hs.current v (by rw [← hsource]; exact hv)
  | meanwhile hserver hcache =>
    refine .of_cluster hserver fun key e he => ?_
    rw [cached?, ← hcache]
    exact he

/-! ## Requests -/

variable [Time τ] (timing : Resync.Timing τ)

omit [Time τ] in
theorem leaves_changeCache {change : Except Malformed (Cache τ)} {c : Cluster τ}
    (hchange : ∀ cache, change = .ok cache → ∀ key e, cache.find? key = some e →
      c.cache.find? key = some e) :
    (c.changeCache change).2.server = c.server ∧
      ∀ key e, (c.changeCache change).2.cache.find? key = some e → c.cache.find? key = some e := by
  cases change with
  | error reason => exact ⟨rfl, fun _ _ he => he⟩
  | ok cache => exact ⟨rfl, hchange cache rfl⟩

/-- A free request leaves the server as it is, and nothing comes into the cache. -/
theorem leaves_of_isFree {q : (requests τ).Request} (hq : q.IsFree) (c : Cluster τ) :
    (Cluster.handle timing q c).2.server = c.server ∧
      ∀ key e, (Cluster.handle timing q c).2.cache.find? key = some e →
        c.cache.find? key = some e := by
  have hconfigure : ∀ source, (c.configure source).2.server = c.server ∧
      ∀ key e, (c.configure source).2.cache.find? key = some e → c.cache.find? key = some e := by
    intro source
    unfold Cluster.configure
    dsimp only
    split <;> exact ⟨rfl, fun _ _ he => he⟩
  cases q with
  | cacheGet key =>
    exact ⟨rfl, fun other e he => Cache.find?_of_find?_get c.cache key c.clock he⟩
  | cacheForget space name =>
    exact leaves_changeCache fun cache hcache key e he => Cache.find?_of_forgetValues hcache he
  | read space name =>
    show (c.read space name).2.server = c.server ∧
      ∀ key e, (c.read space name).2.cache.find? key = some e → c.cache.find? key = some e
    have hmeet : (c.meet { verb := .read, space := space, name := name }).2.server = c.server ∧
        (c.meet { verb := .read, space := space, name := name }).2.cache = c.cache := ⟨rfl, rfl⟩
    unfold Cluster.read
    generalize c.meet { verb := .read, space := space, name := name } = met at hmeet ⊢
    obtain ⟨x?, d⟩ := met
    obtain ⟨hserver, hcache⟩ := hmeet
    have hsame : d.server = c.server ∧
        ∀ key e, d.cache.find? key = some e → c.cache.find? key = some e := by
      refine ⟨hserver, fun key e he => ?_⟩
      rw [← hcache]
      exact he
    cases x? with
    | some x => exact hsame
    | none =>
      dsimp only
      cases Key.ofValues space name with
      | error reason => exact hsame
      | ok key => exact hsame
  | clusterConfig => exact hconfigure .cluster
  | fileConfig => exact hconfigure .file
  | post event => exact hq.elim
  | cachePut secret => exact hq.elim
  | create space body => exact hq.elim
  | replace space name body => exact hq.elim
  | _ => exact ⟨rfl, fun _ _ he => he⟩

theorem advances_of_isFree {q : (requests τ).Request} (hq : q.IsFree) (h : History τ) :
    h.Advances (h.handle timing q).2 := by
  obtain ⟨hserver, hcached⟩ := leaves_of_isFree timing hq h.cluster
  exact .of_cluster hserver hcached

theorem advances_post (event : Operator.Event) (h : History τ) :
    h.Advances (h.handle timing (.post event)).2 := by
  have hpost : (h.cluster.post event).2.server = h.cluster.server ∧
      (h.cluster.post event).2.cache = h.cluster.cache := by
    unfold Cluster.post
    split <;> exact ⟨rfl, rfl⟩
  obtain ⟨hserver, hcache⟩ := hpost
  refine .of_cluster hserver fun key e he => ?_
  rw [cached?, ← hcache]
  exact he

theorem handle_cachePut {secret : Secret} {key : Key} (hkey : secret.key = .ok key)
    (h : History τ) : h.handle timing (.cachePut secret) = (.ok (), { h with
      cluster := { h.cluster with
        cache := h.cluster.cache.put key secret h.cluster.clock } }) := by
  have hput : h.cluster.cache.putOwn secret h.cluster.clock =
      .ok (h.cluster.cache.put key secret h.cluster.clock) := by
    rw [Cache.putOwn, hkey]
    rfl
  unfold handle
  show ((h.cluster.changeCache (h.cluster.cache.putOwn secret h.cluster.clock)).1,
    { h with cluster := (h.cluster.changeCache (h.cluster.cache.putOwn secret h.cluster.clock)).2 })
      = _
  rw [hput]
  rfl

theorem handle_cachePut_error {secret : Secret} {reason : Malformed}
    (hkey : secret.key = .error reason) (h : History τ) :
    h.handle timing (.cachePut secret) = (.error (.malformed reason), h) := by
  have hput : h.cluster.cache.putOwn secret h.cluster.clock = .error reason := by
    rw [Cache.putOwn, hkey]
    rfl
  unfold handle
  show ((h.cluster.changeCache (h.cluster.cache.putOwn secret h.cluster.clock)).1,
    { h with cluster := (h.cluster.changeCache (h.cluster.cache.putOwn secret h.cluster.clock)).2 })
      = _
  rw [hput]
  rfl

theorem isSound_cachePut (secret : Secret) (hs : h.IsSound) :
    (h.handle timing (.cachePut secret)).2.IsSound := by
  cases hkey : secret.key with
  | error reason =>
    rw [handle_cachePut_error timing hkey]
    exact hs
  | ok key =>
    rw [handle_cachePut timing hkey]
    refine ⟨hs.canonical, hs.current, hs.stored, fun other e he => ?_⟩
    have hfind : (h.cluster.cache.put key secret h.cluster.clock).find? other = some e := he
    rw [Cache.find?_put] at hfind
    split at hfind
    · next heq =>
      cases hfind
      rw [heq]
      exact hkey
    · exact hs.cached other e hfind

/-- A copy of another secret may be cached. -/
theorem advances_cachePut {secret : Secret} (hother : secret.key ≠ .ok .source) (h : History τ) :
    h.Advances (h.handle timing (.cachePut secret)).2 := by
  have hsound : h.IsSound → (h.handle timing (.cachePut secret)).2.IsSound :=
    isSound_cachePut timing secret
  cases hkey : secret.key with
  | error reason =>
    rw [handle_cachePut_error timing hkey]
    exact .refl h
  | ok key =>
    rw [handle_cachePut timing hkey] at hsound ⊢
    refine ⟨List.prefix_rfl, hsound, fun e he => ?_⟩
    have hne : Key.source ≠ key := by
      rintro rfl
      exact hother hkey
    have hfind : (h.cluster.cache.put key secret h.cluster.clock).find? .source = some e := he
    rw [Cache.find?_put, if_neg hne] at hfind
    exact hfind

/-! ## Writes -/

/-- A change that the server takes stores the body under the key, with some version. -/
def Files (body : WireSecret) (change : Cluster.Server → Key → Except Cluster.Refusal WireSecret ×
    Cluster.Server) : Prop :=
  ∀ s key stored, (change s key).1 = .ok stored → (∃ version, stored = body.withVersion version) ∧
    ∀ other, (change s key).2.objects other = if other = key then some stored else s.objects other

omit [Time τ] in
theorem files_create (body : WireSecret) : Files body fun server key => server.create key body := by
  intro s key stored hstored
  change (s.create key body).1 = _ at hstored
  show _ ∧ ∀ other, (s.create key body).2.objects other = _
  unfold Cluster.Server.create at hstored ⊢
  cases hobject : s.objects key with
  | some old =>
    rw [hobject] at hstored
    cases hstored
  | none =>
    rw [hobject] at hstored
    cases hstored
    exact ⟨⟨_, rfl⟩, fun other => rfl⟩

omit [Time τ] in
theorem files_replace (body : WireSecret) :
    Files body fun server key => server.replace key body := by
  intro s key stored hstored
  change (s.replace key body).1 = _ at hstored
  show _ ∧ ∀ other, (s.replace key body).2.objects other = _
  unfold Cluster.Server.replace at hstored ⊢
  cases hobject : s.objects key with
  | none =>
    rw [hobject] at hstored
    cases hstored
  | some old =>
    rw [hobject] at hstored
    dsimp only at hstored ⊢
    split at hstored
    · next hversion =>
      cases hstored
      rw [if_pos hversion]
      exact ⟨⟨_, rfl⟩, fun other => rfl⟩
    · cases hstored

/-- What becomes of a write: it is not answered and changes nothing, or the server takes it. -/
theorem write_leaves {change : Cluster.Server → Key → Except Cluster.Refusal WireSecret ×
    Cluster.Server} (hchange : Cluster.Refuses change) (call : Cluster.Call) (c : Cluster τ) :
    (c.write call change).2.cache = c.cache ∧
      ((c.write call change).2.server = c.server ∧ (∀ raw, (c.write call change).1 ≠ .ok raw) ∨
        ∃ key stored, Key.ofValues call.space call.name = .ok key ∧
          (change c.server key).1 = .ok stored ∧
          (c.write call change).2.server = (change c.server key).2 ∧
          ∀ w, (c.write call change).1 = .ok (some w) → w = stored) := by
  have hmeet : (c.meet call).2.server = c.server ∧ (c.meet call).2.cache = c.cache := ⟨rfl, rfl⟩
  unfold Cluster.write
  generalize c.meet call = met at hmeet ⊢
  obtain ⟨x?, d⟩ := met
  obtain ⟨hserver, hcache⟩ := hmeet
  have heffect := Cluster.effect_cases hchange call.space call.name d
  dsimp only at hserver hcache heffect ⊢
  rw [← hserver, ← hcache]
  cases x? with
  | some x =>
    dsimp only
    split
    · rcases heffect with ⟨fault, hrefused⟩ | ⟨key, stored, hkey, hstored, htaken⟩
      · rw [hrefused]
        exact ⟨rfl, .inl ⟨rfl, nofun⟩⟩
      · rw [htaken]
        exact ⟨rfl, .inr ⟨key, stored, hkey, hstored, rfl, nofun⟩⟩
    · exact ⟨rfl, .inl ⟨rfl, nofun⟩⟩
  | none =>
    dsimp only
    rcases heffect with ⟨fault, hrefused⟩ | ⟨key, stored, hkey, hstored, htaken⟩
    · rw [hrefused]
      exact ⟨rfl, .inl ⟨rfl, nofun⟩⟩
    · rw [htaken]
      refine ⟨rfl, .inr ⟨key, stored, hkey, hstored, rfl, fun w hw => ?_⟩⟩
      dsimp only [Except.map] at hw
      split at hw
      · cases hw
        rfl
      · cases hw

/-- A write of another secret brings nothing into the cache, and its answer is about what was
sent. -/
theorem advances_write (call : Cluster.Call) {body : WireSecret} {change : Cluster.Server → Key →
    Except Cluster.Refusal WireSecret × Cluster.Server} (hchange : Cluster.Refuses change)
    (hfiles : Files body change) (hspace : body.metadata.space = call.space)
    (hname : body.metadata.name = call.name)
    (hother : Key.ofValues call.space call.name ≠ .ok .source) (h : History τ) :
    h.Advances { h with cluster := (h.cluster.write call change).2 } ∧
      ∀ w, (h.cluster.write call change).1 = .ok (some w) →
        Key.ofValues w.metadata.space w.metadata.name = Key.ofValues call.space call.name := by
  obtain ⟨hcache, hwrite⟩ := write_leaves hchange call h.cluster
  rcases hwrite with ⟨hserver, hunanswered⟩ | ⟨key, stored, hkey, hstored, hserver, hanswer⟩
  · constructor
    · refine .of_cluster hserver fun other e he => ?_
      rw [cached?, ← hcache]
      exact he
    · intro w hw
      exact absurd hw (hunanswered _)
  · obtain ⟨⟨version, rfl⟩, hobjects⟩ := hfiles _ key stored hstored
    have habout : Key.ofValues (body.withVersion version).metadata.space
        (body.withVersion version).metadata.name = Key.ofValues call.space call.name := by
      rw [← hspace, ← hname]
      rfl
    constructor
    · have hne : key ≠ .source := by
        rintro rfl
        exact hother hkey
      refine .of_stored hne (habout.trans hkey) (fun other => ?_) hcache
      rw [hserver]
      exact hobjects other
    · intro w hw
      rw [hanswer w hw]
      exact habout

end History

end SecretMirror
