import SecretMirror.Proofs.Convergence
import SecretMirror.Proofs.Recovery.Frame

/-!
# One attempt, with calls that may fail

The parts of a synchronisation are followed here in a cluster where calls may be disturbed and where
the cache may hold old copies (`Cluster.IsStocked`).  Two things are shown.  If one of its calls
fails, it fails with the same fault, and nothing was written unless the answer to a write was lost
(`yields_lookUp`, `yields_create`, `yields_update`).  If a look-up succeeds, what it brings was once
stored (`ends_lookUp`).
-/

namespace SecretMirror

open Operator
open Program hiding bind ask

/-- The secret reads like some record that was once stored under the key. -/
def Secret.IsCopy (s : Secret) (key : Key) : Prop :=
  ∃ w : WireSecret, w.IsServed key ∧ Secret.ofWire w = .ok s

theorem Secret.IsCopy.own {s : Secret} {key : Key} (h : s.IsCopy key) : s.key = .ok key := by
  obtain ⟨w, hserved, hread⟩ := h
  exact (hserved.reads hread).1

namespace Cluster

variable {τ : Type}

/-- A call of the API was answered by a fault, other than by the news that there is nothing to read,
which a look-up takes for an answer. -/
def FailsWith (x : Exchange (requests τ) (Fault τ)) (fault : Fault τ) : Prop :=
  x.request.IsCall ∧ x.answer = .error fault ∧
    ∀ space name, x.request = .read space name →
      (fault.isApi && fault.statusOf.isNumber 404) = false

theorem FailsWith.not_not_isCall {x : Exchange (requests τ) (Fault τ)} {fault : Fault τ}
    (h : FailsWith x fault) : ¬ ¬ x.request.IsCall := not_not_intro h.1

theorem FailsWith.not_isInert {x : Exchange (requests τ) (Fault τ)} {fault : Fault τ}
    (h : FailsWith x fault) : ¬ Request.IsInert x.request := fun hinert => hinert.not_isCall h.1

variable [Time τ] {c d : Cluster τ}

/-- Both secrets are well-formed where they are stored, and what is cached of them was once stored,
or is too old to be handed out. -/
structure IsStocked (c : Cluster τ) : Prop where
  latency : 0 ≤ c.latency
  served : ∀ key, key = .source ∨ key = .target →
    ∀ w, c.server.objects key = some w → w.IsServed key
  cached : ∀ key, key = .source ∨ key = .target → ∀ e, c.cache.find? key = some e →
    c.cache.isExpired e c.clock = true ∨ e.secret.IsCopy key

/-- Nothing has come into the cache. -/
abbrev noKey : Key → Prop := fun _ => False

omit [Time τ] in
theorem isCopy_of_seen {key : Key} (hserved : ∀ w, c.server.objects key = some w → w.IsServed key)
    {s : Secret} (h : c.server.seen key = some s) : s.IsCopy key := by
  obtain ⟨w, hw, hread⟩ := Server.objects_of_seen h
  exact ⟨w, hserved w hw, hread⟩

variable [Time.IsExact τ] {keys : Key → Prop}

theorem IsStocked.abides (hc : c.IsStocked) (h : c.Abides keys d) : d.IsStocked where
  latency := by
    rw [h.latency]
    exact hc.latency
  served key hkey w hw := by
    rw [h.server] at hw
    exact hc.served key hkey w hw
  cached key hkey e he := by
    rcases h.cached key e he with hfind | ⟨-, hseen⟩
    · rcases hc.cached key hkey e hfind with hexpired | hcopy
      · left
        have hlater := Cache.isExpired_mono (h.clock hc.latency) hexpired
        simpa only [Cache.isExpired, h.ttl] using hlater
      · exact .inr hcopy
    · exact .inr (isCopy_of_seen (hc.served key hkey) hseen)

omit [Time.IsExact τ] in
theorem IsReady.isStocked (hc : c.IsReady) : c.IsStocked where
  latency := hc.undisturbed.latency
  served := hc.served
  cached key hkey e he :=
    (hc.coherent key hkey e he).imp_right fun hseen => isCopy_of_seen (hc.served key hkey) hseen

variable (timing : Resync.Timing τ)

/-! ## Bookkeeping and turns -/

theorem abides_of_gives {α : Type} {p : Task τ α} (hp : IsBookkeeping p) {a : α}
    (h : p.Gives (handle timing) c a d) : c.Abides keys d := by
  have habides : c.Abides keys (p.run (handle timing) c).2 := abides_of_isBookkeeping timing hp c
  rw [h] at habides
  exact habides

theorem ends_measureSince (keys : Key → Prop) (start : τ) (s : Series) (c : Cluster τ) :
    (measureSince start s).Ends (handle timing) c fun r d => r = .ok () ∧ c.Abides keys d :=
  ⟨rfl, abides_of_isBookkeeping timing (isBookkeeping_measureSince start s) c⟩

omit [Time.IsExact τ] in
theorem TakesTurn.abides (h : c.TakesTurn d) : c.Abides keys d := by
  have hclock := h.clock
  rw [h.rest] at hclock ⊢
  exact .of_same ⟨rfl, rfl, fun _ x hx => ⟨x, hx, rfl, rfl⟩⟩ (fun _ => hclock) rfl rfl

omit [Time.IsExact τ] in
/-- A program that makes no call does not fail by one. -/
theorem yields_of_callsNothing {α : Type} {p : Task τ α} (hp : CallsNothing p) (c : Cluster τ)
    (Q : Fault τ → Fault τ → Cluster τ → Prop) : p.Yields (handle timing) FailsWith c Q :=
  hp.yields (fun _ _ h => h.not_not_isCall) c Q

theorem exists_turn {rate : τ} (hrate : Time.isZero rate = false) (c : Cluster τ) :
    ∃ d, c.Abides noKey d ∧ (takeTurn rate).Gives (handle timing) c () d ∧
      ∀ Q, (takeTurn rate).Yields (handle timing) FailsWith c Q := by
  obtain ⟨d, hturn, hd⟩ := gives_takeTurn timing hrate c
  refine ⟨d, hd.abides, hturn, fun Q => ?_⟩
  have hsilent : CallsNothing (takeTurn rate) :=
    asksOnly_takeTurn (fun _ hq => hq.isInert.not_isCall) (fun _ => id) rate
  exact yields_of_callsNothing timing hsilent c Q

/-! ## Reading -/

theorem ends_readFailure (keys : Key → Prop) (fault : Fault τ) (c : Cluster τ) :
    (readFailure fault).Ends (handle timing) c fun r d => c.Abides keys d ∧
      r = if fault.isApi && fault.statusOf.isNumber 404 then .ok none else .error fault := by
  refine ⟨abides_of_isBookkeeping timing (isBookkeeping_readFailure fault) c, ?_⟩
  unfold readFailure
  cases fault.isApi with
  | false => rfl
  | true =>
    cases fault.statusOf.isNumber 404 with
    | false => rfl
    | true => rfl

section Reading

variable {rate : τ} (hrate : Time.isZero rate = false) {space name : Value} {key : Key}
  (hkey : Key.ofValues space name = .ok key)

include hrate hkey

theorem ends_readThrough (c : Cluster τ) :
    (readThrough rate space name).Ends (handle timing) c fun r d => c.Abides noKey d ∧
      ∀ w, r = .ok (some w) → c.server.objects key = some w := by
  obtain ⟨c₁, h₁, hturn, -⟩ := exists_turn timing hrate c
  have hcalled : (spaced rate (ask (.read space name)) >>= fun raw => pure (some raw)).Ends
      (handle timing) c fun r d => c.Abides noKey d ∧
        ∀ w, r = .ok (some w) → c.server.objects key = some w := by
    rw [spaced_bind]
    refine hturn.ends_bind (ends_bind (ends_request (Q := fun r d => c₁.Abides noKey d ∧
      ∀ w, r = .ok w → c₁.server.objects key = some w) ?_) ?_ ?_)
    · exact ⟨abides_read space name c₁, fun w hw => objects_of_read hkey hw⟩
    · rintro w d ⟨hd, hstored⟩
      refine ends_done ⟨h₁.trans hd, fun w' hw' => ?_⟩
      obtain rfl : w = w' := Option.some.inj (Except.ok.inj hw')
      rw [← h₁.server]
      exact hstored w rfl
    · rintro fault d ⟨hd, -⟩
      exact ⟨h₁.trans hd, nofun⟩
  have hrecovered : ((spaced rate (ask (.read space name)) >>=
      fun raw => pure (some raw)).recover readFailure).Ends (handle timing) c fun r d =>
        c.Abides noKey d ∧ ∀ w, r = .ok (some w) → c.server.objects key = some w := by
    refine ends_recover hcalled (fun raw d h => h) fun fault d h => ?_
    refine (ends_readFailure timing noKey fault d).imp fun r e hr =>
      ⟨h.1.trans hr.1, fun w hw => ?_⟩
    rw [hr.2] at hw
    split at hw
    · cases hw
    · cases hw
  unfold readThrough
  refine Gives.ends_bind (a := c.clock) rfl (ends_always hrecovered fun r d h => ?_)
  exact (ends_measureSince timing noKey c.clock _ d).imp fun r' e hr => ⟨hr.1, h.1.trans hr.2, h.2⟩

omit hkey in
theorem yields_readThrough (c : Cluster τ) :
    (readThrough rate space name).Yields (handle timing) FailsWith c fun e f _ => f = e := by
  obtain ⟨c₁, -, hturn, hsilent⟩ := exists_turn timing hrate c
  have hcalled : (spaced rate (ask (.read space name)) >>= fun raw => pure (some raw)).Yields
      (handle timing) FailsWith c fun e f _ =>
        f = e ∧ (e.isApi && e.statusOf.isNumber 404) = false := by
    rw [spaced_bind]
    refine hturn.yields_bind (hsilent _) (yields_bind ?_ fun w d _ => ?_)
    · refine yields_request fun e he => ?_
      exact ⟨e, he.2.1, rfl, he.2.2 space name rfl⟩
    · exact yields_of_callsNothing timing (isBookkeeping_pure _).callsNothing d _
  unfold readThrough
  refine Gives.yields_bind (a := c.clock) rfl ?_ ?_
  · exact yields_of_callsNothing timing (callsNothing_ask (q := .now) id) c _
  · refine yields_always (M := fun e f _ => f = e) ?_ (isBookkeeping_measureSince _ _)
      (fun _ _ h => h.not_isInert) fun e f d h => ?_
    · refine yields_recover hcalled isBookkeeping_readFailure (fun _ _ h => h.not_isInert) ?_
      rintro _ e d ⟨rfl, hnews⟩
      have hpassed := ends_readFailure timing noKey e d
      refine hpassed.imp fun r _ hr => ⟨e, ?_, rfl⟩
      rw [hr.2, hnews]
      rfl
    · exact (ends_measureSince timing noKey c.clock _ d).imp fun r _ hr => ⟨hr.1, h⟩

omit hrate hkey in
theorem ends_takeIn {w : WireSecret} (hserved : w.IsServed key)
    (hobject : c.server.objects key = some w) :
    (takeIn w).Ends (handle timing) c fun r d => c.Abides (· = key) d ∧
      ∀ s, r = .ok (some s) → s.IsCopy key := by
  obtain ⟨s, hs⟩ := hserved.read
  have hcopy : s.IsCopy key := ⟨w, hserved, hs⟩
  obtain ⟨c₁, hcounted, -⟩ := gives_count timing (.apiCalls "get_secret" "success") c
  have h₁ : c.Abides (· = key) c₁ := abides_of_gives timing (isBookkeeping_count _) hcounted
  have hdecoded : (checked (Secret.ofWire w)).Gives (handle timing) c₁ s c₁ :=
    gives_ofExcept (by rw [hs]; rfl) c₁
  have hput : c₁.cache.putOwn s c₁.clock = .ok (c₁.cache.put key s c₁.clock) := by
    rw [Cache.putOwn, hcopy.own]
    rfl
  have hcachePut : (ask (.cachePut s)).Gives (handle timing) c₁ ()
      { c₁ with cache := c₁.cache.put key s c₁.clock } := by
    refine gives_request ?_
    show c₁.changeCache (c₁.cache.putOwn s c₁.clock) = _
    rw [hput]
    rfl
  have hgives : (takeIn w).Gives (handle timing) c (some s) _ :=
    gives_bind hcounted (gives_bind hdecoded (gives_bind hcachePut (gives_pure _ _)))
  refine hgives.ends ⟨?_, ?_⟩
  · refine h₁.trans (.of_cache (Cache.ttl_put ..) fun other e he => ?_)
    rw [Cache.find?_put] at he
    split at he
    · next heq =>
      cases he
      subst heq
      right
      refine ⟨rfl, ?_⟩
      rw [h₁.server]
      exact Server.seen_of_objects hobject hs
    · exact .inl he
  · rintro s' ⟨⟩
    exact hcopy

/-- A look-up leaves everything but the cache as it was, and what it brings was once stored. -/
theorem ends_lookUp (hserved : ∀ w, c.server.objects key = some w → w.IsServed key)
    (hcached : ∀ e, c.cache.find? key = some e →
      c.cache.isExpired e c.clock = true ∨ e.secret.IsCopy key) :
    (lookUp rate space name).Ends (handle timing) c fun r d => c.Abides (· = key) d ∧
      ∀ s, r = .ok (some s) → s.IsCopy key := by
  have hchecked : (checked (Key.ofValues space name)).Gives (handle timing) c key c :=
    gives_ofExcept (by rw [hkey]; rfl) c
  have hget : (ask (.cacheGet key)).Gives (handle timing) c (c.cache.get key c.clock).1
      { c with cache := (c.cache.get key c.clock).2 } := rfl
  have h₁ : c.Abides (· = key) { c with cache := (c.cache.get key c.clock).2 } :=
    abides_cacheGet timing key c
  unfold lookUp
  refine hchecked.ends_bind (hget.ends_bind ?_)
  generalize { c with cache := (c.cache.get key c.clock).2 } = c₁ at h₁
  cases hfound : (c.cache.get key c.clock).1 with
  | some s =>
    have hcopy : s.IsCopy key := by
      obtain ⟨e, he, hfresh, rfl⟩ := Cache.find?_of_get _ _ _ hfound
      rcases hcached e he with hexpired | hcopy
      · rw [hfresh] at hexpired
        cases hexpired
      · exact hcopy
    obtain ⟨d, hcounted, -⟩ := gives_count timing (.apiCalls "get_secret" "cache_hit") c₁
    refine hcounted.ends_bind (ends_done ⟨?_, fun s' hs' => ?_⟩)
    · exact h₁.trans (abides_of_gives timing (isBookkeeping_count _) hcounted)
    · rw [← Option.some.inj (Except.ok.inj hs')]
      exact hcopy
  | none =>
    refine ends_bind (ends_readThrough timing hrate hkey c₁) ?_ ?_
    · rintro found c₂ ⟨h₂, hstored⟩
      have h₁₂ := h₁.trans (h₂.mono fun _ => False.elim)
      cases found with
      | none =>
        refine ends_done ⟨h₁₂, fun s hs => ?_⟩
        cases hs
      | some w =>
        have hobject : c₂.server.objects key = some w := by
          rw [h₂.server]
          exact hstored w rfl
        have hserved' : w.IsServed key := by
          rw [h₁₂.server] at hobject
          exact hserved w hobject
        exact (ends_takeIn timing hserved' hobject).imp fun r d h => ⟨h₁₂.trans h.1, h.2⟩
    · rintro fault c₂ ⟨h₂, -⟩
      refine ⟨h₁.trans (h₂.mono fun _ => False.elim), fun s hs => ?_⟩
      cases hs

/-- A look-up fails with the fault of its call. -/
theorem yields_lookUp (hserved : ∀ w, c.server.objects key = some w → w.IsServed key)
    (hcached : ∀ e, c.cache.find? key = some e →
      c.cache.isExpired e c.clock = true ∨ e.secret.IsCopy key) :
    (lookUp rate space name).Yields (handle timing) FailsWith c fun e f d =>
      f = e ∧ c.Abides (· = key) d := by
  have hresult : (lookUp rate space name).Yields (handle timing) FailsWith c fun e f _ =>
      f = e := by
    have hchecked := isBookkeeping_checked (τ := τ) (Key.ofValues space name)
    unfold lookUp
    refine yields_bind (yields_of_callsNothing timing hchecked.callsNothing c _) fun k c₁ _ => ?_
    have hget := callsNothing_ask (q := (.cacheGet k : Request τ)) id
    refine yields_bind (yields_of_callsNothing timing hget c₁ _) fun cached c₂ _ => ?_
    cases cached with
    | some s =>
      refine yields_of_callsNothing timing (IsBookkeeping.callsNothing ?_) c₂ _
      exact isBookkeeping_bind (isBookkeeping_count _) fun _ => isBookkeeping_pure _
    | none =>
      refine yields_bind (yields_readThrough timing hrate c₂) fun found c₃ _ => ?_
      refine yields_of_callsNothing timing ?_ c₃ _
      cases found with
      | none => exact (isBookkeeping_pure _).callsNothing
      | some w => exact asksOnly_takeIn (fun _ hq => hq.isInert.not_isCall) (fun _ => id) w
  have hends := ends_lookUp timing hrate hkey hserved hcached
  exact (hresult.and_ends hends).imp fun e f d h => ⟨h.1, h.2.1⟩

end Reading

/-! ## Writing -/

/-- A fault is passed on as it is, and nothing was written unless the answer was lost. -/
def Forwards (keys : Key → Prop) (c : Cluster τ) (fault passed : Fault τ) (d : Cluster τ) : Prop :=
  passed = fault ∧ (c.Abides keys d ∨ c.LosesAnswers fault)

theorem Forwards.of_abides {others : Key → Prop} {e : Cluster τ} {fault passed : Fault τ}
    (hd : c.Abides keys d) (hkeys : ∀ key, others key → keys key)
    (h : d.Forwards others fault passed e) : c.Forwards keys fault passed e := by
  obtain ⟨hpassed, he⟩ := h
  refine ⟨hpassed, he.imp (fun habides => ?_) hd.toUntouched.losesAnswers⟩
  exact hd.trans (habides.mono hkeys)

theorem Forwards.abides {e : Cluster τ} {fault passed : Fault τ}
    (h : c.Forwards keys fault passed d) (hd : d.Abides noKey e) :
    c.Forwards keys fault passed e := by
  obtain ⟨hpassed, hc⟩ := h
  exact ⟨hpassed, hc.imp_left fun habides => habides.trans (hd.mono fun _ => False.elim)⟩

omit [Time.IsExact τ] in
theorem forwards_of_undergoes {call : Call}
    {change : Server → Key → Except Refusal WireSecret × Server}
    {a : Except (Fault τ) (Option WireSecret)} (h : c.Undergoes call change a d) {fault : Fault τ}
    (ha : a = .error fault) : c.Forwards noKey fault fault d := by
  cases h with
  | fails habides => exact ⟨rfl, .inl (habides noKey)⟩
  | @loses x d hplan hlate =>
    obtain rfl : x.fault = fault := Except.error.inj ha
    exact ⟨rfl, .inr ⟨call.verb, x, hplan, hlate, rfl⟩⟩
  | succeeds _ _ _ _ => cases ha

theorem yields_createCall (space : Value) (body : WireSecret) (c : Cluster τ) :
    (ask (.create space body)).Yields (handle timing) FailsWith c (c.Forwards noKey) := by
  refine yields_request fun e he => ⟨e, he.2.1, ?_⟩
  exact forwards_of_undergoes (write_cases (refuses_create body) _ c) he.2.1

theorem yields_replaceCall (space name : Value) (body : WireSecret) (c : Cluster τ) :
    (ask (.replace space name body)).Yields (handle timing) FailsWith c (c.Forwards noKey) := by
  refine yields_request fun e he => ⟨e, he.2.1, ?_⟩
  exact forwards_of_undergoes (write_cases (refuses_replace body) _ c) he.2.1

/-- A failed write is passed on if its secret has a key, and the key is dropped from the cache. -/
theorem ends_writeFailure (operation : Operation) {secret : Secret} {key : Key}
    (hkey : secret.key = .ok key) (fault : Fault τ) (c : Cluster τ) :
    (writeFailure operation secret fault).Ends (handle timing) c fun r d =>
      r = .error fault ∧ c.Abides noKey d := by
  refine ⟨?_, abides_of_isBookkeeping timing (isBookkeeping_writeFailure operation secret fault) c⟩
  obtain ⟨c₁, hcounted, -⟩ := gives_count timing (.apiCalls operation.callName "error") c
  obtain ⟨c₂, hcounted', -⟩ := gives_count timing (.writes operation.name "error") c₁
  obtain ⟨cache, hforget⟩ := (Cache.exists_forgetValues_iff c₂.cache secret.space secret.name).2
    (.inr ⟨key, hkey⟩)
  have hforgotten : (ask (.cacheForget secret.space secret.name)).Gives (handle timing) c₂ ()
      { c₂ with cache := cache } := by
    refine gives_request ?_
    show c₂.changeCache (c₂.cache.forgetValues secret.space secret.name) = _
    rw [hforget]
    rfl
  have hends : (writeFailure operation secret fault).Ends (handle timing) c fun r _ =>
      r = .error fault :=
    hcounted.ends_bind (hcounted'.ends_bind (hforgotten.ends_bind (ends_done rfl)))
  exact hends

section Writes

variable {rate : τ} (hrate : Time.isZero rate = false) {secret : Secret} {key : Key}
  (hkey : secret.key = .ok key)

include hrate hkey

/-- A write fails as its call does. -/
theorem yields_write (operation : Operation) (call : Task τ (Option WireSecret))
    (hcall : ∀ d, c.Abides noKey d →
      call.Yields (handle timing) FailsWith d (d.Forwards noKey)) :
    (Operator.write rate operation secret call).Yields (handle timing) FailsWith c
      (c.Forwards noKey) := by
  obtain ⟨c₁, h₁, hturn, hsilent⟩ := exists_turn timing hrate c
  have hcalled : (spaced rate call).Yields (handle timing) FailsWith c (c.Forwards noKey) := by
    rw [spaced]
    refine hturn.yields_bind (hsilent _) ((hcall c₁ h₁).imp fun e f d h => ?_)
    exact h.of_abides h₁ fun _ => id
  have hrecovered : ((spaced rate call).recover (writeFailure operation secret)).Yields
      (handle timing) FailsWith c (c.Forwards noKey) := by
    refine yields_recover hcalled (isBookkeeping_writeFailure operation secret)
      (fun _ _ h => h.not_isInert) fun e f d h => ?_
    refine (ends_writeFailure timing operation hkey f d).imp fun r d' hr => ?_
    exact ⟨f, hr.1, h.abides hr.2⟩
  have hnow := callsNothing_ask (q := (.now : Request τ)) id
  refine Gives.yields_bind (a := c.clock) rfl (yields_of_callsNothing timing hnow c _) ?_
  refine yields_bind (yields_always hrecovered (isBookkeeping_measureSince _ _)
    (fun _ _ h => h.not_isInert) fun e f d h => ?_) fun raw d _ => ?_
  · exact (ends_measureSince timing noKey c.clock _ d).imp fun r d' hr => ⟨hr.1, h.abides hr.2⟩
  · refine yields_of_callsNothing timing ?_ d _
    exact asksOnly_concludeWrite (fun _ hq => hq.isInert.not_isCall)
      (fun _ hq => hq.isInert.not_isCall) (fun _ => id) operation secret raw

theorem yields_create :
    (Operator.create rate secret).Yields (handle timing) FailsWith c (c.Forwards noKey) := by
  have hchecked := (isBookkeeping_checked (τ := τ) secret.toWire).callsNothing
  refine yields_bind (yields_of_callsNothing timing hchecked c _) fun body d hbody => ?_
  have hd : c.Abides noKey d := abides_of_gives timing (isBookkeeping_checked _) hbody
  have hwrite := yields_write (c := d) timing hrate hkey .create
    (ask (.create secret.space (WireSecret.unversioned body)))
    fun d' _ => yields_createCall timing secret.space (WireSecret.unversioned body) d'
  exact hwrite.imp fun e f d' h => h.of_abides hd fun _ => id

theorem yields_update :
    (Operator.update rate secret).Yields (handle timing) FailsWith c (c.Forwards noKey) := by
  refine yields_write timing hrate hkey .update _ fun d _ => ?_
  have hchecked := (isBookkeeping_checked (τ := τ) secret.toWire).callsNothing
  refine yields_bind (yields_of_callsNothing timing hchecked d _) fun body d' hbody => ?_
  have hd' : d.Abides noKey d' := abides_of_gives timing (isBookkeeping_checked _) hbody
  refine (yields_replaceCall timing secret.space secret.name body d').imp fun e f d'' h => ?_
  exact h.of_abides hd' fun _ => id

end Writes

end Cluster

end SecretMirror
