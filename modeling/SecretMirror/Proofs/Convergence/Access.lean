import SecretMirror.Proofs.Bookkeeping
import SecretMirror.Proofs.Convergence.Undisturbed
import SecretMirror.Proofs.Wire.RoundTrip

/-!
# Reading and writing in an undisturbed cluster

A look-up gives what the server has under the key, whether it was cached or read (`gives_lookUp`).
A write of a secret that the server accepts gives the secret as stored, and leaves the cache
coherent under its key (`gives_create`, `gives_update`).
-/

namespace SecretMirror.Cluster

open Operator
open Program hiding bind ask

variable {τ : Type} [Time τ] [Time.IsExact τ] {c d : Cluster τ}
  (timing : Resync.Timing τ)

/-! ## Bookkeeping -/

theorem gives_count (s : Series) (c : Cluster τ) :
    ∃ d, (count s).Gives (handle timing) c () d ∧ c.Passes d := by
  refine ⟨_, rfl, ?_⟩
  exact ⟨.of_same_cache (Time.le_refl c.clock) rfl rfl fun h => ⟨h.1, h.2, h.3, h.4, h.5⟩, rfl, rfl⟩

theorem gives_measureSince (start : τ) (s : Series) (c : Cluster τ) :
    ∃ d, (measureSince start s).Gives (handle timing) c () d ∧ c.Passes d := by
  refine ⟨_, rfl, ?_⟩
  exact ⟨.of_same_cache (Time.le_refl c.clock) rfl rfl fun h => ⟨h.1, h.2, h.3, h.4, h.5⟩, rfl, rfl⟩

theorem gives_log (line : Log.Line) (c : Cluster τ) :
    ∃ d, (ask (.log line)).Gives (handle timing) c () d ∧ c.Passes d := by
  refine ⟨_, rfl, ?_⟩
  exact ⟨.of_same_cache (Time.le_refl c.clock) rfl rfl fun h => ⟨h.1, h.2, h.3, h.4, h.5⟩, rfl, rfl⟩

theorem wait_nonneg {spacing now last wait : τ}
    (h : RateLimit.wait? spacing now last = some wait) : 0 ≤ wait := by
  unfold RateLimit.wait? at h
  split at h
  · next hlt =>
    rw [← Option.some.inj h]
    exact Time.IsExact.sub_nonneg (Time.le_of_lt hlt)
  · cases h

/-- Time has passed for a call to take its turn, and nothing else has happened. -/
structure TakesTurn (c d : Cluster τ) : Prop where
  clock : c.clock ≤ d.clock
  rest : d = { c with
    clock := d.clock
    lastCall := d.lastCall
    record := { c.record with sleeps := d.record.sleeps } }

theorem TakesTurn.passes (h : c.TakesTurn d) : c.Passes d := by
  have hclock := h.clock
  rw [h.rest] at hclock ⊢
  exact ⟨.of_same_cache hclock rfl rfl fun h => ⟨h.1, h.2, h.3, h.4, h.5⟩, rfl, rfl⟩

theorem gives_takeTurn {rate : τ} (hrate : Time.isZero rate = false) (c : Cluster τ) :
    ∃ d, (takeTurn rate).Gives (handle timing) c () d ∧ c.TakesTurn d := by
  have hspacing : RateLimit.spacing rate = .ok (1 / rate) := by
    simp [RateLimit.spacing, hrate]
  cases hwait : RateLimit.wait? (1 / rate) c.clock c.lastCall with
  | none =>
    refine ⟨{ c with lastCall := c.clock }, ?_, Time.le_refl c.clock, rfl⟩
    simp only [Gives, takeTurn, hspacing, Program.ofExcept, now, ask, request, bind_eq_outcome,
      outcome_done, outcome_ask, resume_ok, run_ask, handle, hwait]
    rfl
  | some wait =>
    refine ⟨{ c.advance wait with
      record := { c.record with sleeps := c.record.sleeps ++ [wait] }
      lastCall := c.clock + wait }, ?_, ?_, rfl⟩
    · simp only [Gives, takeTurn, hspacing, Program.ofExcept, now, ask, request, bind_eq_outcome,
        outcome_done, outcome_ask, resume_ok, run_ask, handle, hwait]
      rfl
    · exact Time.IsExact.le_add_of_nonneg c.clock (wait_nonneg hwait)

/-- A call that has to wait its turn is made at some later time. -/
theorem run_spaced {rate : τ} (hrate : Time.isZero rate = false) (c : Cluster τ) :
    ∃ d, c.Passes d ∧ ∀ {α : Type} (call : Task τ α),
      (spaced rate call).run (handle timing) c = call.run (handle timing) d := by
  obtain ⟨d, hturn, hd⟩ := gives_takeTurn timing hrate c
  refine ⟨d, hd.passes, fun call => ?_⟩
  rw [spaced, run_bind, hturn]
  rfl

/-! ## Calls -/

/-- The cluster after a call has reached the server and has taken its time. -/
def called (c : Cluster τ) (call : Call) : Cluster τ :=
  { c.advance c.latency with record := { c.record with calls := c.record.calls ++ [call] } }

omit [Time.IsExact τ] in
theorem meet_of_disturbances (h : ∀ verb, c.disturbances verb = none) (call : Call) :
    c.meet call = (none, c.called call) := by
  unfold meet Disturbances.meet
  rw [h call.verb]
  rfl

theorem later_called (hundisturbed : c.IsUndisturbed) (call : Call) : c.Later (c.called call) := by
  apply Later.of_same_cache
  · exact Time.IsExact.le_add_of_nonneg c.clock hundisturbed.latency
  · rfl
  · rfl
  · exact fun h => ⟨h.1, h.2, h.3, h.4, h.5⟩

theorem passes_called (hundisturbed : c.IsUndisturbed) (call : Call) (hverb : call.verb = .read) :
    c.Passes (c.called call) := by
  refine ⟨later_called hundisturbed call, rfl, ?_⟩
  have hread : [call].filter (fun call => call.verb != .read) = [] := by simp [hverb]
  show (c.record.calls ++ [call]).filter _ = _
  rw [List.filter_append, hread, List.append_nil]
  rfl

/-! ## Looking up -/

/-- What the server says about a key. -/
theorem read_of_isUndisturbed (hundisturbed : c.IsUndisturbed) {space name : Value} {key : Key}
    (hkey : Key.ofValues space name = .ok key) :
    ∃ d, c.read space name = ((c.server.read key).mapError Refusal.fault, d) ∧ c.Passes d := by
  refine ⟨_, ?_, passes_called hundisturbed { verb := .read, space := space, name := name } rfl⟩
  unfold read
  rw [meet_of_disturbances hundisturbed.disturbances]
  dsimp only
  rw [hkey]
  rfl

/-- What reading through the API gives for a key. -/
theorem gives_readThrough {rate : τ} (hrate : Time.isZero rate = false)
    (hundisturbed : c.IsUndisturbed)
    {space name : Value} {key : Key} (hkey : Key.ofValues space name = .ok key) :
    ∃ d, (readThrough rate space name).Gives (handle timing) c (c.server.objects key) d ∧
      c.Passes d := by
  obtain ⟨c₁, h₁, hspaced⟩ := run_spaced timing hrate c
  obtain ⟨c₂, hread, h₂⟩ := read_of_isUndisturbed (h₁.undisturbed hundisturbed) hkey
  rw [h₁.server] at hread
  cases hobject : c.server.objects key with
  | some w =>
    have hserver : c.server.read key = .ok w := by
      rw [Server.read, hobject]
    rw [hserver] at hread
    have hcall : (spaced rate (ask (.read space name))).Gives (handle timing) c w c₂ := by
      unfold Gives
      rw [hspaced]
      exact gives_request hread
    obtain ⟨d, hmeasured, hd⟩ := gives_measureSince timing c.clock (.apiCallTime "get_secret") c₂
    refine ⟨d, ?_, h₁.trans (h₂.trans hd)⟩
    refine gives_bind (a := c.clock) rfl ?_
    exact gives_always (gives_recover (gives_bind hcall (gives_pure _ _))) hmeasured
  | none =>
    have hserver : c.server.read key = .error .notFound := by
      rw [Server.read, hobject]
    rw [hserver] at hread
    have hcall : (spaced rate (ask (.read space name)) >>= fun raw => pure (some raw)).run
        (handle timing) c = (.error Refusal.notFound.fault, c₂) := by
      rw [run_bind, hspaced]
      show (resume _ (c₁.read space name).1).run _ (c₁.read space name).2 = _
      rw [hread]
      rfl
    obtain ⟨c₃, hcounted, h₃⟩ := gives_count timing (.apiCalls "get_secret" "not_found") c₂
    obtain ⟨d, hmeasured, hd⟩ := gives_measureSince timing c.clock (.apiCallTime "get_secret") c₃
    refine ⟨d, ?_, h₁.trans (h₂.trans (h₃.trans hd))⟩
    refine gives_bind (a := c.clock) rfl ?_
    refine gives_always (gives_recover_of_error hcall ?_) hmeasured
    exact gives_bind hcounted (gives_pure _ _)

theorem gives_cacheGet (key : Key) (c : Cluster τ) :
    ∃ d, (ask (.cacheGet key)).Gives (handle timing) c (c.cache.get key c.clock).1 d ∧
      c.Passes d := by
  refine ⟨{ c with cache := (c.cache.get key c.clock).2 }, rfl, ?_⟩
  have hcalls : c.IsUndisturbed →
    Cluster.IsUndisturbed { c with cache := (c.cache.get key c.clock).2 } :=
    fun h => ⟨h.1, h.2, h.3, h.4, h.5⟩
  refine ⟨⟨Time.le_refl c.clock, rfl, hcalls, fun other h => ?_⟩, rfl, rfl⟩
  exact h.of_le (Time.le_refl c.clock) rfl (Cache.ttl_get ..) fun e he =>
    Cache.find?_of_find?_get _ _ _ he

omit [Time.IsExact τ] in
/-- What is handed out for a coherent key is what is stored. -/
theorem seen_of_cacheGet {key : Key} {s : Secret} (hcoherent : c.Coherent key)
    (h : (c.cache.get key c.clock).1 = some s) : c.server.seen key = some s := by
  obtain ⟨e, he, hfresh, rfl⟩ := Cache.find?_of_get _ _ _ h
  rcases hcoherent e he with hexpired | hseen
  · rw [hfresh] at hexpired
    cases hexpired
  · exact hseen

omit [Time.IsExact τ] in
/-- Caching what is stored makes its key coherent, and leaves the other keys alone. -/
theorem coherent_put {key : Key} {s : Secret} {now : τ} (hseen : c.server.seen key = some s)
    {other : Key} (hother : other ≠ key → c.Coherent other) :
    Coherent { c with cache := c.cache.put key s now } other := by
  intro e he
  rw [Cache.find?_put] at he
  split at he
  · next heq =>
    cases he
    subst heq
    exact .inr hseen
  · next hne => exact hother hne e he

theorem gives_cachePut {key : Key} {s : Secret} (hkey : s.key = .ok key)
    (hseen : c.server.seen key = some s) :
    ∃ d, (ask (.cachePut s)).Gives (handle timing) c () d ∧ c.Passes d ∧ d.Coherent key := by
  have hput : c.cache.putOwn s c.clock = .ok (c.cache.put key s c.clock) := by
    rw [Cache.putOwn, hkey]
    rfl
  have hanswer : handle timing (.cachePut s) c =
      (.ok (), { c with cache := c.cache.put key s c.clock }) := by
    show c.changeCache (c.cache.putOwn s c.clock) = _
    rw [hput]
    rfl
  refine ⟨_, gives_request hanswer, ⟨⟨Time.le_refl c.clock, rfl, ?_, ?_⟩, rfl, rfl⟩, ?_⟩
  · exact fun h => ⟨h.1, h.2, h.3, h.4, h.5⟩
  · exact fun other h => coherent_put hseen fun _ => h
  · exact coherent_put hseen fun hne => absurd rfl hne

/-- A look-up gives what is stored, whether it was cached or read. -/
theorem gives_lookUp {rate : τ} (hrate : Time.isZero rate = false) (hundisturbed : c.IsUndisturbed)
    {space name : Value} {key : Key} (hkey : Key.ofValues space name = .ok key)
    (hcoherent : c.Coherent key)
    (hserved : ∀ w, c.server.objects key = some w → w.IsServed key) :
    ∃ d, (lookUp rate space name).Gives (handle timing) c (c.server.seen key) d ∧ c.Passes d := by
  obtain ⟨c₁, hget, h₁⟩ := gives_cacheGet timing key c
  have hchecked : (checked (Key.ofValues space name)).Gives (handle timing) c key c :=
    gives_ofExcept (by rw [hkey]; rfl) c
  -- What is handed out is what is stored, by coherence; what is not there is read.
  cases hcached : (c.cache.get key c.clock).1 with
  | some secret =>
    rw [hcached] at hget
    rw [seen_of_cacheGet hcoherent hcached]
    obtain ⟨d, hcounted, hd⟩ := gives_count timing (.apiCalls "get_secret" "cache_hit") c₁
    refine ⟨d, gives_bind hchecked (gives_bind hget ?_), h₁.trans hd⟩
    exact gives_bind hcounted (gives_pure _ _)
  | none =>
    rw [hcached] at hget
    obtain ⟨c₂, hread, h₂⟩ :=
      gives_readThrough timing hrate (h₁.undisturbed hundisturbed) hkey
    rw [h₁.server] at hread
    cases hobject : c.server.objects key with
    | none =>
      have hseen : c.server.seen key = none := by
        rw [Server.seen, hobject]
        rfl
      rw [hobject] at hread
      rw [hseen]
      refine ⟨c₂, gives_bind hchecked (gives_bind hget ?_), h₁.trans h₂⟩
      exact gives_bind hread (gives_pure _ _)
    | some w =>
      obtain ⟨s, hs⟩ := (hserved w hobject).read
      have hown : s.key = .ok key := by
        obtain ⟨_, _, _, _, -, -, -, -, rfl⟩ := Secret.ofWire_eq_ok_iff.1 hs
        exact (hserved w hobject).own
      have hseen : c.server.seen key = some s := by
        rw [Server.seen, hobject, Option.bind_some, hs]
        rfl
      rw [hobject] at hread
      rw [hseen]
      obtain ⟨c₃, hcounted, h₃⟩ := gives_count timing
        (.apiCalls "get_secret" "success") c₂
      have hpassed := h₁.trans (h₂.trans h₃)
      have hdecoded : (checked (Secret.ofWire w)).Gives (handle timing) c₃ s c₃ :=
        gives_ofExcept (by rw [hs]; rfl) c₃
      obtain ⟨d, hput, hd, -⟩ := gives_cachePut timing (c := c₃) hown
        (by rw [hpassed.server]; exact hseen)
      refine ⟨d, gives_bind hchecked (gives_bind hget ?_), hpassed.trans hd⟩
      refine gives_bind hread (gives_bind hcounted (gives_bind hdecoded ?_))
      exact gives_bind hput (gives_pure _ _)

/-! ## Writing -/

theorem stores_commit (hundisturbed : c.IsUndisturbed) (call : Call) (key : Key)
    (body : WireSecret) :
    c.Stores key (c.server.commit key body).1
      { c.called call with server := (c.server.commit key body).2 } where
  clock := Time.IsExact.le_add_of_nonneg c.clock hundisturbed.latency
  stored := by
    rw [Server.objects_commit, if_pos rfl]
  others other hne := by
    rw [Server.objects_commit, if_neg hne]
  undisturbed h := ⟨h.1, h.2, h.3, h.4, h.5⟩
  coherent other hne h := by
    apply h.of_le (d := { c.called call with server := (c.server.commit key body).2 })
    · exact Time.IsExact.le_add_of_nonneg c.clock hundisturbed.latency
    · show ((c.server.commit key body).2.objects other).bind _ = _
      rw [Server.objects_commit, if_neg hne]
      rfl
    · rfl
    · exact fun e he => he

/-- A write that the server accepts takes effect, and its answer is what was stored. -/
theorem write_of_isUndisturbed (hundisturbed : c.IsUndisturbed) (call : Call) {key : Key}
    {body : WireSecret} (change : Server → Key → Except Refusal WireSecret × Server)
    (hkey : Key.ofValues call.space call.name = .ok key)
    (hchange : change c.server key =
      (.ok (c.server.commit key body).1, (c.server.commit key body).2)) :
    ∃ d, c.write call change = (.ok (some (c.server.commit key body).1), d) ∧
      c.Stores key (c.server.commit key body).1 d := by
  refine ⟨_, ?_, stores_commit hundisturbed call key body⟩
  have hserver : (c.called call).server = c.server := rfl
  have hanswers : (c.called call).answersWrites = true := hundisturbed.answersWrites
  unfold write
  rw [meet_of_disturbances hundisturbed.disturbances]
  dsimp only
  unfold effect
  rw [hkey]
  dsimp only
  rw [hserver, hchange]
  simp only [Except.mapError, Except.map, hanswers, if_true]

theorem gives_createCall (hundisturbed : c.IsUndisturbed) {space : Value} {body : WireSecret}
    {key : Key} (hkey : Key.ofValues space body.metadata.name = .ok key)
    (hnone : c.server.objects key = none) :
    ∃ d, (ask (.create space body)).Gives (handle timing) c (some (c.server.commit key body).1) d ∧
      c.Stores key (c.server.commit key body).1 d := by
  have hchange : c.server.create key body =
      (.ok (c.server.commit key body).1, (c.server.commit key body).2) := by
    rw [Server.create, hnone]
  obtain ⟨d, hd, hstores⟩ := write_of_isUndisturbed hundisturbed
    { verb := .create, space := space, name := body.metadata.name, body := some body }
    (fun server key => server.create key body) hkey hchange
  exact ⟨d, gives_request hd, hstores⟩

theorem gives_replaceCall (hundisturbed : c.IsUndisturbed) {space name : Value}
    {body old : WireSecret} {key : Key} (hkey : Key.ofValues space name = .ok key)
    (hold : c.server.objects key = some old)
    (hsame : body.metadata.resourceVersion.same old.metadata.resourceVersion = true) :
    ∃ d, (ask (.replace space name body)).Gives (handle timing) c
        (some (c.server.commit key body).1) d ∧
      c.Stores key (c.server.commit key body).1 d := by
  have hchange : c.server.replace key body =
      (.ok (c.server.commit key body).1, (c.server.commit key body).2) := by
    rw [Server.replace, hold]
    dsimp only
    rw [if_pos hsame]
  obtain ⟨d, hd, hstores⟩ := write_of_isUndisturbed hundisturbed
    { verb := .replace, space := space, name := name, body := some body }
    (fun server key => server.replace key body) hkey hchange
  exact ⟨d, gives_request hd, hstores⟩

/-- A write gives the secret as stored, and its key is coherent afterwards. -/
theorem gives_write {rate : τ} (hrate : Time.isZero rate = false) (operation : Operation)
    (secret : Secret) {call : Task τ (Option WireSecret)} {key : Key} {w : WireSecret} {s : Secret}
    (hcall : ∀ c', c.Passes c' →
      ∃ d, call.Gives (handle timing) c' (some w) d ∧ c'.Stores key w d)
    (hs : Secret.ofWire w = .ok s) (hkey : s.key = .ok key) :
    ∃ d, (Operator.write rate operation secret call).Gives (handle timing) c s d ∧
      c.Stores key w d ∧ d.Coherent key := by
  obtain ⟨c₁, h₁, hspaced⟩ := run_spaced timing hrate c
  obtain ⟨c₂, hwritten, h₂⟩ := hcall c₁ h₁
  have hturn : (spaced rate call).Gives (handle timing) c (some w) c₂ := by
    unfold Gives
    rw [hspaced]
    exact hwritten
  obtain ⟨c₃, hmeasured, h₃⟩ := gives_measureSince timing c.clock
    (.apiCallTime operation.callName) c₂
  obtain ⟨c₄, hcounted, h₄⟩ := gives_count timing
    (.apiCalls operation.callName "success") c₃
  obtain ⟨c₅, hcounted', h₅⟩ := gives_count timing
    (.writes operation.name "success") c₄
  have hdecoded : (checked (Secret.ofWire w)).Gives (handle timing) c₅ s c₅ :=
    gives_ofExcept (by rw [hs]; rfl) c₅
  have hstores := ((h₂.of_later h₁.toLater).later h₃.toLater).later (h₄.trans h₅).toLater
  have hseen : c₅.server.seen key = some s := by
    rw [Server.seen, hstores.stored, Option.bind_some, hs]
    rfl
  obtain ⟨d, hput, hd, hcoherent⟩ := gives_cachePut timing hkey hseen
  refine ⟨d, ?_, hstores.later hd.toLater, hcoherent⟩
  refine gives_bind (a := c.clock) rfl ?_
  refine gives_bind (gives_always (gives_recover hturn) hmeasured) ?_
  refine gives_bind hcounted (gives_bind hcounted' (gives_bind hdecoded ?_))
  exact gives_bind hput (gives_pure _ _)

/-- A secret has been written under a key, and is read there now as it was sent but for its
version. -/
structure Writes (c : Cluster τ) (key : Key) (secret stored : Secret) (d : Cluster τ) : Prop where
  stores : ∃ w, c.Stores key w d ∧ w.IsServed key ∧ Secret.ofWire w = .ok stored
  coherent : d.Coherent key
  content : stored = { secret with resourceVersion := stored.resourceVersion }

/-- What is stored for a secret that was read, or that has the same shape. -/
theorem isServed_of_toWire {s : Secret} (hread : s.IsRead)
    (hplain : s.annotations.plain = s.annotations) {key : Key} (hkey : s.key = .ok key) (n : Nat) :
    ∃ body, s.toWire = .ok body ∧ body.metadata.name = s.name ∧
      body.metadata.resourceVersion = s.resourceVersion ∧
      (body.withVersion (Server.versionText n)).IsServed key ∧
      Secret.ofWire (body.withVersion (Server.versionText n)) =
        .ok { s with resourceVersion := Server.versionText n } := by
  obtain ⟨⟨data, hdata⟩, ⟨finalizers, hfin⟩, ⟨labels, hlab⟩, ⟨owners, hown⟩⟩ := id hread
  have hwire := Secret.toWire_of_isRead hdata hfin hlab hown
  obtain ⟨body, hbody, hback⟩ := Secret.ofWire_toWire hread
  have hstored : Secret.ofWire (body.withVersion (Server.versionText n)) =
      .ok { s with resourceVersion := Server.versionText n } := by
    rw [Secret.ofWire_withVersion, hback, hplain]
    rfl
  obtain rfl := Except.ok.inj (hwire.symm.trans hbody)
  have hversion : (Server.versionText n).same (Server.versionText n) = true := by
    simp [Server.versionText, Value.same, Value.atom?]
  refine ⟨_, hbody, rfl, rfl, ⟨⟨_, hstored⟩, hkey, ?_, hversion⟩, hstored⟩
  exact Secret.wireAnnotations_eq s.annotations

/-- A secret that does not exist yet is created. -/
theorem gives_create {rate : τ} (hrate : Time.isZero rate = false) (hundisturbed : c.IsUndisturbed)
    {s : Secret} (hread : s.IsRead) (hplain : s.annotations.plain = s.annotations) {key : Key}
    (hkey : s.key = .ok key) (hnone : c.server.objects key = none) :
    ∃ d stored, (Operator.create rate s).Gives (handle timing) c stored d ∧
      c.Writes key s stored d := by
  obtain ⟨body, hbody, hname, -, hserved, hstored⟩ :=
    isServed_of_toWire hread hplain hkey (c.server.version + 1)
  have hcall : ∀ c', c.Passes c' → ∃ d, (ask (.create s.space (WireSecret.unversioned body))).Gives
      (handle timing) c' (some (body.withVersion (Server.versionText (c.server.version + 1)))) d ∧
      c'.Stores key (body.withVersion (Server.versionText (c.server.version + 1))) d := by
    intro c' h'
    have hkey' : Key.ofValues s.space (WireSecret.unversioned body).metadata.name = .ok key := by
      show Key.ofValues s.space body.metadata.name = _
      rw [hname]
      exact hkey
    rw [← h'.server] at hnone ⊢
    exact gives_createCall timing (h'.undisturbed hundisturbed) hkey' hnone
  obtain ⟨d, hgives, hstores, hcoherent⟩ := gives_write timing hrate .create s hcall hstored hkey
  have hchecked : (checked s.toWire).Gives (handle timing) c body c :=
    gives_ofExcept (by rw [hbody]; rfl) c
  exact ⟨d, _, gives_bind hchecked hgives, ⟨_, hstores, hserved, hstored⟩, hcoherent, rfl⟩

/-- A secret that still has the version that was read is replaced. -/
theorem gives_update {rate : τ} (hrate : Time.isZero rate = false) (hundisturbed : c.IsUndisturbed)
    {s : Secret} (hread : s.IsRead) (hplain : s.annotations.plain = s.annotations) {key : Key}
    (hkey : s.key = .ok key) {old : WireSecret} (hold : c.server.objects key = some old)
    (hsame : s.resourceVersion.same old.metadata.resourceVersion = true) :
    ∃ d stored, (Operator.update rate s).Gives (handle timing) c stored d ∧
      c.Writes key s stored d := by
  obtain ⟨body, hbody, -, hversion, hserved, hstored⟩ :=
    isServed_of_toWire hread hplain hkey (c.server.version + 1)
  have hcall : ∀ c', c.Passes c' → ∃ d, (do
      let body ← checked s.toWire
      ask (.replace s.space s.name body) : Task τ (Option WireSecret)).Gives (handle timing) c'
        (some (body.withVersion (Server.versionText (c.server.version + 1)))) d ∧
      c'.Stores key (body.withVersion (Server.versionText (c.server.version + 1))) d := by
    intro c' h'
    have hchecked : (checked s.toWire).Gives (handle timing) c' body c' :=
      gives_ofExcept (by rw [hbody]; rfl) c'
    rw [← h'.server] at hold ⊢
    rw [← hversion] at hsame
    obtain ⟨d, hreplaced, hstores⟩ :=
      gives_replaceCall timing (h'.undisturbed hundisturbed) hkey hold hsame
    exact ⟨d, gives_bind hchecked hreplaced, hstores⟩
  obtain ⟨d, hgives, hstores, hcoherent⟩ := gives_write timing hrate .update s hcall hstored hkey
  exact ⟨d, _, hgives, ⟨_, hstores, hserved, hstored⟩, hcoherent, rfl⟩

end SecretMirror.Cluster
