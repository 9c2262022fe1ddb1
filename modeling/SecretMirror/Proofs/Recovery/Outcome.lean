import SecretMirror.Proofs.CachingContract
import SecretMirror.Proofs.Recovery.Attempts

/-!
# What a reconciliation comes to

`Server.carryOut` is the change that a decision asks the server for, and `Decision.events` the
events by which it is emitted.  A reconciliation that reports a decision has made exactly this
change and emitted it, whatever was disturbed on the way and whatever was cached
(`makes_of_gives_reconcile`).  One in which a call fails reports the failure, has emitted nothing,
and has changed nothing unless the answer to a write was lost (`yields_reconcile`); after a conflict
it asks for an early retry and neither secret is cached any more.
-/

namespace SecretMirror

open Operator
open Program hiding bind ask

/-- The events by which what was decided is emitted, with the reason and the text of `sync`. -/
def Decision.events : Decision → List Operator.Event
  | .noOp _ => []
  | .create _ => [{
      object := Sync.Places.targetReference {}
      reason := .text Names.createdReason
      message := .text s!"Secret {Sync.Places.targetPath {}} created" }]
  | .update _ => [{
      object := Sync.Places.targetReference {}
      reason := .text Names.updatedReason
      message := .text s!"Secret {Sync.Places.targetPath {}} updated" }]

namespace Cluster

variable {τ : Type} [Time τ] {c d : Cluster τ}

/-- What a server makes of a decision.  It says nothing of how the request was sent or answered. -/
def Server.carryOut (s : Server) : Decision → Server
  | .noOp _ => s
  | .create secret =>
    match secret.toWire, secret.key with
    | .ok body, .ok key => (s.create key (WireSecret.unversioned body)).2
    | _, _ => s
  | .update secret =>
    match secret.toWire, secret.key with
    | .ok body, .ok key => (s.replace key body).2
    | _, _ => s

/-- The server and the emitted events have become these. -/
def Makes (c : Cluster τ) (server : Server) (events : List Operator.Event) (d : Cluster τ) : Prop :=
  d.server = server ∧ d.record.events = c.record.events ++ events

/-- Both secrets. -/
abbrev bothKeys : Key → Prop := fun key => key = .source ∨ key = .target

variable [Time.IsExact τ] (timing : Resync.Timing τ)

/-! ## What was reported has been done -/

theorem untouched_of_asksOnly {α : Type} {p : Task τ α} (hp : p.AsksOnly Request.IsHarmless)
    {a : α} (h : p.Gives (handle timing) c a d) : c.Untouched d := by
  have huntouched : c.Untouched (p.run (handle timing) c).2 :=
    hp.relates Untouched.refl Untouched.trans (fun _ c hq => untouched_of_isHarmless timing hq c) c
  rw [h] at huntouched
  exact huntouched

theorem untouched_of_isBookkeeping {α : Type} {p : Task τ α} (hp : IsBookkeeping p) {a : α}
    (h : p.Gives (handle timing) c a d) : c.Untouched d :=
  untouched_of_asksOnly timing (hp.imp fun _ hq => hq.isHarmless) h

omit [Time.IsExact τ] in
theorem of_gives_checked {α : Type} {r : Except Malformed α} {a : α}
    (h : (checked r).Gives (handle timing) c a d) : r = .ok a ∧ c = d := by
  cases r with
  | error reason => cases h
  | ok b =>
    cases h
    exact ⟨rfl, rfl⟩

omit [Time.IsExact τ] in
theorem not_gives_writeFailure (operation : Operation) (secret : Secret) (fault : Fault τ)
    {raw : Option WireSecret} :
    ¬ (writeFailure operation secret fault).Gives (handle timing) c raw d := by
  intro h
  obtain ⟨_, c₁, -, h⟩ := h.of_bind
  obtain ⟨_, c₂, -, h⟩ := h.of_bind
  obtain ⟨_, c₃, -, h⟩ := h.of_bind
  exact not_gives_fail h

theorem exists_call_of_gives_write {rate : τ} {operation : Operation} {secret stored : Secret}
    {call : Task τ (Option WireSecret)}
    (h : (Operator.write rate operation secret call).Gives (handle timing) c stored d) :
    ∃ c₁ raw c₂, c.Untouched c₁ ∧ call.Gives (handle timing) c₁ raw c₂ ∧ c₂.Untouched d := by
  have hturn : (takeTurn rate).AsksOnly Request.IsHarmless :=
    asksOnly_takeTurn (fun _ hq => hq.isInert.isHarmless) (fun _ => trivial) rate
  obtain ⟨start, _, hnow, h⟩ := h.of_bind
  cases hnow
  obtain ⟨raw, c₃, halways, hconclude⟩ := h.of_bind
  obtain ⟨c₂, hrecovered, hmeasured⟩ := halways.of_always
  rcases hrecovered.of_recover with hcalled | ⟨fault, c₀, -, hfailed⟩
  · rw [spaced] at hcalled
    obtain ⟨_, c₁, htaken, hcall⟩ := hcalled.of_bind
    have h₁ := untouched_of_asksOnly timing hturn htaken
    have h₃ := untouched_of_isBookkeeping timing (isBookkeeping_measureSince _ _) hmeasured
    have hconcluded : (concludeWrite (τ := τ) operation secret raw).AsksOnly Request.IsHarmless :=
      asksOnly_concludeWrite (fun _ hq => hq.isInert.isHarmless) (fun _ hq => hq.isInert.isHarmless)
        (fun _ => trivial) operation secret raw
    exact ⟨c₁, raw, c₂, h₁, hcall, h₃.trans (untouched_of_asksOnly timing hconcluded hconclude)⟩
  · exact absurd hfailed (not_gives_writeFailure timing operation secret fault)

omit [Time.IsExact τ] in
theorem makes_of_undergoes {call : Call}
    {change : Server → Key → Except Refusal WireSecret × Server}
    {a : Except (Fault τ) (Option WireSecret)} (h : c.Undergoes call change a d)
    {raw : Option WireSecret} (ha : a = .ok raw) :
    ∃ key, Key.ofValues call.space call.name = .ok key ∧ c.Makes (change c.server key).2 [] d := by
  cases h with
  | fails _ => cases ha
  | loses _ _ => cases ha
  | @succeeds key _ _ _ hkey _ huntouched hserver =>
    refine ⟨key, hkey, hserver, ?_⟩
    rw [List.append_nil]
    exact huntouched.events

omit [Time τ] [Time.IsExact τ] in
theorem Makes.of_untouched {e : Cluster τ} {server : Server} {events : List Operator.Event}
    (h : c.Untouched d) (h' : d.Makes server events e) : c.Makes server events e := by
  obtain ⟨hserver, hevents⟩ := h'
  rw [h.events] at hevents
  exact ⟨hserver, hevents⟩

omit [Time τ] [Time.IsExact τ] in
theorem Makes.untouched {e : Cluster τ} {server : Server} {events : List Operator.Event}
    (h : c.Makes server events d) (h' : d.Untouched e) : c.Makes server events e := by
  obtain ⟨hserver, hevents⟩ := h
  exact ⟨h'.server.trans hserver, h'.events.trans hevents⟩

theorem makes_of_gives_create {rate : τ} {secret stored : Secret}
    (h : (Operator.create rate secret).Gives (handle timing) c stored d) :
    c.Makes (c.server.carryOut (.create secret)) [] d := by
  obtain ⟨body, _, hchecked, hwrite⟩ := h.of_bind
  obtain ⟨hbody, rfl⟩ := of_gives_checked timing hchecked
  obtain ⟨c₁, raw, c₂, h₁, hcall, h₂⟩ := exists_call_of_gives_write timing hwrite
  have hcases := write_cases (refuses_create (WireSecret.unversioned body))
    { verb := .create, space := secret.space, name := (WireSecret.unversioned body).metadata.name
      body := some (WireSecret.unversioned body) } c₁
  have hanswer : c₁.create secret.space (WireSecret.unversioned body) = (.ok raw, c₂) := hcall
  unfold Cluster.create at hanswer
  rw [hanswer] at hcases
  obtain ⟨key, hkey, hmakes⟩ := makes_of_undergoes hcases rfl
  have hown : secret.key = .ok key := by
    rw [← hkey]
    exact congrArg (Key.ofValues secret.space) (Secret.of_toWire hbody).1.symm
  have hcarried : c.server.carryOut (.create secret) =
      (c.server.create key (WireSecret.unversioned body)).2 := by
    simp only [Server.carryOut, hbody, hown]
  rw [hcarried, ← h₁.server]
  exact .of_untouched h₁ (hmakes.untouched h₂)

theorem makes_of_gives_update {rate : τ} {secret stored : Secret}
    (h : (Operator.update rate secret).Gives (handle timing) c stored d) :
    c.Makes (c.server.carryOut (.update secret)) [] d := by
  obtain ⟨c₁, raw, c₂, h₁, hcall, h₂⟩ := exists_call_of_gives_write timing h
  obtain ⟨body, _, hchecked, hreplace⟩ := hcall.of_bind
  obtain ⟨hbody, rfl⟩ := of_gives_checked timing hchecked
  have hcases := write_cases (refuses_replace body)
    { verb := .replace, space := secret.space, name := secret.name, body := some body } c₁
  have hanswer : c₁.replace secret.space secret.name body = (.ok raw, c₂) := hreplace
  unfold Cluster.replace at hanswer
  rw [hanswer] at hcases
  obtain ⟨key, hown, hmakes⟩ := makes_of_undergoes hcases rfl
  have hcarried : c.server.carryOut (.update secret) = (c.server.replace key body).2 := by
    have hkey : secret.key = .ok key := hown
    simp only [Server.carryOut, hbody, hkey]
  rw [hcarried, ← h₁.server]
  exact .of_untouched h₁ (hmakes.untouched h₂)

omit [Time.IsExact τ] in
theorem makes_of_gives_post {event : Operator.Event}
    (h : (ask (.post event)).Gives (handle timing) c () d) : c.Makes c.server [event] d := by
  have hposted : c.post event = (.ok (), d) := h
  unfold post at hposted
  split at hposted
  · cases hposted
  · cases hposted
    exact ⟨rfl, rfl⟩

theorem makes_of_gives_perform {rate : τ} {decision : Decision}
    (h : (perform rate {} decision).Gives (handle timing) c () d) :
    c.Makes (c.server.carryOut decision) decision.events d := by
  have emitted : ∀ {c₁ : Cluster τ} {server : Server} {event : Operator.Event},
      c.Makes server [] c₁ → c₁.Makes c₁.server [event] d → c.Makes server [event] d := by
    rintro c₁ server event ⟨hserver, hevents⟩ ⟨hserver', hevents'⟩
    rw [hevents, List.append_nil] at hevents'
    exact ⟨hserver'.trans hserver, hevents'⟩
  cases decision with
  | noOp why =>
    cases h
    exact ⟨rfl, (List.append_nil _).symm⟩
  | create secret =>
    rw [perform_create] at h
    obtain ⟨stored, c₁, hcreated, hposted⟩ := h.of_bind
    exact emitted (makes_of_gives_create timing hcreated) (makes_of_gives_post timing hposted)
  | update secret =>
    rw [perform_update] at h
    obtain ⟨stored, c₁, hupdated, hposted⟩ := h.of_bind
    exact emitted (makes_of_gives_update timing hupdated) (makes_of_gives_post timing hposted)

theorem makes_of_gives_sync {rate : τ} {decision : Decision}
    (h : (Operator.sync rate {}).Gives (handle timing) c decision d) :
    c.Makes (c.server.carryOut decision) decision.events d := by
  rw [sync_eq] at h
  obtain ⟨source?, c₁, hsource, h⟩ := h.of_bind
  have h₁ := untouched_of_asksOnly timing (asksOnly_lookUp (fun _ => id) _ _ _) hsource
  cases source? with
  | none =>
    obtain ⟨hdecided, rfl⟩ := of_gives_checked timing h
    cases hdecided
    exact ⟨h₁.server, h₁.events.trans (List.append_nil _).symm⟩
  | some source =>
    obtain ⟨target?, c₂, htarget, h⟩ := h.of_bind
    have h₂ := untouched_of_asksOnly timing (asksOnly_lookUp (fun _ => id) _ _ _) htarget
    obtain ⟨decided, _, hchecked, hrest⟩ := h.of_bind
    obtain ⟨-, rfl⟩ := of_gives_checked timing hchecked
    obtain ⟨_, c₃, hperformed, hdone⟩ := hrest.of_bind
    cases hdone
    have hmakes := makes_of_gives_perform timing hperformed
    rw [(h₁.trans h₂).server] at hmakes
    exact hmakes.of_untouched (h₁.trans h₂)

omit [Time τ] [Time.IsExact τ] in
theorem not_gives_passOn [Time τ] (delay : τ) (places : Sync.Places) (fault : Fault τ)
    {decision : Decision} : ¬ (passOn delay places fault).Gives (handle timing) c decision d := by
  intro h
  unfold passOn at h
  split at h
  · obtain ⟨_, c₁, -, h⟩ := h.of_bind
    exact not_gives_fail h
  · split at h
    · exact not_gives_fail h
    · exact not_gives_fail h

/-- A reconciliation that reports a decision has carried it out and emitted it, whatever was
disturbed on the way. -/
theorem makes_of_gives_reconcile {tuning : Tuning τ} {trigger : Value} {decision : Decision}
    (h : (reconcile tuning trigger).Gives (handle timing) c decision d) :
    c.Makes (c.server.carryOut decision) decision.events d := by
  obtain ⟨_, c₁, hconnected, h⟩ := h.of_bind
  have h₁ := untouched_of_isBookkeeping timing isBookkeeping_connect hconnected
  obtain ⟨start, _, hnow, h⟩ := h.of_bind
  cases hnow
  obtain ⟨decided, c₃, halways, h⟩ := h.of_bind
  obtain ⟨c₂, hrecovered, hmeasured⟩ := halways.of_always
  obtain ⟨_, c₄, hrecorded, hdone⟩ := h.of_bind
  cases hdone
  have h₂ := untouched_of_isBookkeeping timing (isBookkeeping_measureSince _ _) hmeasured
  have h₃ := untouched_of_isBookkeeping timing (isBookkeeping_recordSuccess _ _) hrecorded
  rcases hrecovered.of_recover with hsynced | ⟨fault, c₀, -, hfailed⟩
  · have hmakes := makes_of_gives_sync timing hsynced
    rw [h₁.server] at hmakes
    exact .of_untouched h₁ (hmakes.untouched (h₂.trans h₃))
  · obtain ⟨_, c₅, -, hpassed⟩ := hfailed.of_bind
    exact absurd hpassed (not_gives_passOn timing _ _ _)

/-! ## What failed has changed nothing -/

section Failures

variable {rate : τ} (hrate : Time.isZero rate = false)

include hrate

/-- What was decided fails as its call does. -/
theorem yields_perform {decision : Decision}
    (hkey : ∀ secret, decision.secret? = some secret → ∃ key, secret.key = .ok key) :
    (perform rate {} decision).Yields (handle timing) FailsWith c (c.Forwards noKey) := by
  cases decision with
  | noOp why => exact yields_of_callsNothing timing (isBookkeeping_pure ()).callsNothing c _
  | create secret =>
    obtain ⟨key, hown⟩ := hkey secret rfl
    rw [perform_create]
    refine yields_bind (yields_create timing hrate hown) fun stored d _ => ?_
    exact yields_of_callsNothing timing (callsNothing_ask id) d _
  | update secret =>
    obtain ⟨key, hown⟩ := hkey secret rfl
    rw [perform_update]
    refine yields_bind (yields_update timing hrate hown) fun stored d _ => ?_
    exact yields_of_callsNothing timing (callsNothing_ask id) d _

omit [Time τ] [Time.IsExact τ] timing hrate in
/-- What is to be written after a decision has a key if the secrets that were found have. -/
theorem exists_key_of_decides {source target : Option Secret} {decision : Decision}
    (h : Decides (.text Names.target) source target decision)
    (hsource : ∀ s, source = some s → ∃ key, s.key = .ok key)
    (htarget : ∀ s, target = some s → ∃ key, s.key = .ok key) {secret : Secret}
    (hsecret : decision.secret? = some secret) : ∃ key, secret.key = .ok key := by
  cases h with
  | sourceAbsent => cases hsecret
  | foreign => cases hsecret
  | inSync => cases hsecret
  | create hmirror =>
    cases hsecret
    obtain ⟨key, hkey⟩ := hsource _ rfl
    have hr := isMirrorOf_of_mirror hmirror
    refine ⟨⟨key.space, .text Names.target⟩, ?_⟩
    rw [Secret.key, hr.name, hr.space]
    exact Key.ofValues_rename hkey Names.target
  | @update _ t =>
    cases hsecret
    obtain ⟨key, hkey⟩ := htarget t rfl
    exact ⟨key, hkey⟩

theorem IsStocked.yields_lookUp (hc : c.IsStocked) {name : String}
    (hkey : bothKeys (.ofTexts Names.configNamespace name)) :
    (lookUp rate (.text Names.configNamespace) (.text name)).Yields (handle timing) FailsWith c
      (c.Forwards bothKeys) := by
  have hyields := Cluster.yields_lookUp timing hrate (Key.ofValues_text Names.configNamespace name)
    (hc.served _ hkey) (hc.cached _ hkey)
  refine hyields.imp fun e f d h => ⟨h.1, .inl (h.2.mono ?_)⟩
  rintro key rfl
  exact hkey

theorem IsStocked.finds (hc : c.IsStocked) {name : String}
    (hkey : bothKeys (.ofTexts Names.configNamespace name)) {found : Option Secret}
    (h : (lookUp rate (.text Names.configNamespace) (.text name)).Gives (handle timing) c found d) :
    c.Abides bothKeys d ∧
      ∀ s, found = some s → s.IsCopy (.ofTexts Names.configNamespace name) := by
  have hends := ends_lookUp timing hrate (Key.ofValues_text Names.configNamespace name)
    (hc.served _ hkey) (hc.cached _ hkey)
  obtain ⟨habides, hcopy⟩ := hends.of_gives h
  refine ⟨habides.mono ?_, fun s hs => hcopy s (congrArg Except.ok hs)⟩
  rintro key rfl
  exact hkey

/-- A synchronisation fails as its calls do. -/
theorem yields_sync (hc : c.IsStocked) :
    (Operator.sync rate {}).Yields (handle timing) FailsWith c (c.Forwards bothKeys) := by
  rw [sync_eq]
  refine yields_bind (hc.yields_lookUp timing hrate (.inl rfl)) fun source? c₁ hfound => ?_
  obtain ⟨h₁, hcopy⟩ := hc.finds timing hrate (.inl rfl) hfound
  cases source? with
  | none => exact yields_of_callsNothing timing (isBookkeeping_checked _).callsNothing c₁ _
  | some source =>
    have hc₁ := hc.abides h₁
    refine yields_bind ((hc₁.yields_lookUp timing hrate (.inr rfl)).imp fun e f d h => ?_) ?_
    · exact h.of_abides h₁ fun _ => id
    intro target? c₂ hfound'
    obtain ⟨h₂, hcopy'⟩ := hc₁.finds timing hrate (.inr rfl) hfound'
    have hchecked := isBookkeeping_checked (τ := τ)
      (decide (some source) target? (.text Names.target))
    refine yields_bind (yields_of_callsNothing timing hchecked.callsNothing c₂ _) ?_
    intro decision c₃ hgiven
    obtain ⟨hdecided, rfl⟩ := of_gives_checked timing hgiven
    have hkey : ∀ secret, decision.secret? = some secret → ∃ key, secret.key = .ok key :=
      fun secret => exists_key_of_decides (decides_of_decide hdecided)
        (fun s hs => ⟨_, (hcopy s hs).own⟩) fun s hs => ⟨_, (hcopy' s hs).own⟩
    refine yields_bind ?_ fun _ d _ => ?_
    · refine (yields_perform timing hrate hkey).imp fun e f d h => ?_
      exact h.of_abides (h₁.trans h₂) fun _ => False.elim
    · exact yields_of_callsNothing timing (isBookkeeping_pure _).callsNothing d _

end Failures

/-! ## What is made of a failure -/

theorem gives_recordFailure (trigger : String) (fault : Fault τ) (c : Cluster τ) :
    ∃ d, (recordFailure (.text trigger) fault).Gives (handle timing) c () d ∧
      c.Abides noKey d := by
  obtain ⟨line, hline, -⟩ := exists_failureLine trigger fault
  obtain ⟨c₁, hcounted, -⟩ := gives_count timing
    (.reconciliations (Value.text trigger).display "error") c
  obtain ⟨c₂, hcounted', -⟩ := gives_count timing (.errors fault.typeName) c₁
  obtain ⟨d, hlogged, -⟩ := gives_log timing line c₂
  have hgives : (recordFailure (.text trigger) fault).Gives (handle timing) c () d :=
    gives_bind hcounted (gives_bind hcounted' (gives_bind
      (gives_ofExcept (congrArg (Except.mapError Fault.malformed) hline) c₂) hlogged))
  exact ⟨d, hgives, abides_of_gives timing (isBookkeeping_recordFailure _ _) hgives⟩

omit [Time.IsExact τ] in
theorem Abides.find?_eq_none {keys : Key → Prop} (h : c.Abides keys d) {key : Key}
    (hkey : ¬ keys key) (hnone : c.cache.find? key = none) : d.cache.find? key = none := by
  cases hfind : d.cache.find? key with
  | none => rfl
  | some e =>
    rcases h.cached key e hfind with hbefore | ⟨hkeys, -⟩
    · rw [hnone] at hbefore
      cases hbefore
    · exact absurd hkeys hkey

theorem gives_cacheForget (space name : String) (c : Cluster τ) :
    ∃ d, (ask (.cacheForget (.text space) (.text name))).Gives (handle timing) c () d ∧
      c.Abides noKey d ∧ d.cache.find? (.ofTexts space name) = none := by
  have hkey := Key.ofValues_text space name
  obtain ⟨cache, hforget⟩ := (Cache.exists_forgetValues_iff c.cache (.text space) (.text name)).2
    (.inr ⟨_, hkey⟩)
  have hgives : (ask (.cacheForget (.text space) (.text name))).Gives (handle timing) c ()
      { c with cache := cache } := by
    refine gives_request ?_
    show c.changeCache (c.cache.forgetValues (.text space) (.text name)) = _
    rw [hforget]
    rfl
  refine ⟨_, hgives,
    abides_of_gives timing (isBookkeeping_ask (q := .cacheForget _ _) trivial) hgives, ?_⟩
  rw [Cache.find?_forgetValues hforget, if_pos hkey]

/-- Neither secret is cached any more, so what is decided next is decided on what is read. -/
def IsForgetful (c : Cluster τ) : Prop :=
  c.cache.find? .source = none ∧ c.cache.find? .target = none

omit [Time.IsExact τ] in
theorem IsForgetful.abides (hc : c.IsForgetful) (h : c.Abides noKey d) : d.IsForgetful :=
  ⟨h.find?_eq_none id hc.1, h.find?_eq_none id hc.2⟩

theorem gives_forgetBoth (c : Cluster τ) :
    ∃ d, (forgetBoth {}).Gives (handle timing) c () d ∧ c.Abides noKey d ∧ d.IsForgetful := by
  obtain ⟨c₁, hforgotten, h₁, hsource⟩ :=
    gives_cacheForget timing Names.configNamespace Names.source c
  obtain ⟨d, hforgotten', hd, htarget⟩ :=
    gives_cacheForget timing Names.configNamespace Names.target c₁
  refine ⟨d, gives_bind hforgotten hforgotten', h₁.trans hd, ?_, htarget⟩
  exact hd.find?_eq_none id hsource

/-- What a conflict is passed on as, with its own delay and the conflict as its cause. -/
def conflictFault (delay : τ) (fault : Fault τ) : Fault τ :=
  .temporary s!"Conflict writing {Sync.Places.targetPath {}}" (some delay) (some fault)

/-- Every fault is passed on as a fault, and a conflict as one that asks for an early retry, after
both secrets were dropped from the cache. -/
theorem ends_passOn (delay : τ) (fault : Fault τ) (c : Cluster τ) :
    (passOn delay {} fault).Ends (handle timing) c fun r d => c.Abides noKey d ∧
      ∃ passed, r = .error passed ∧ ((fault.isApi && fault.isConflict) = true →
        passed = conflictFault delay fault ∧ d.IsForgetful) := by
  unfold passOn
  cases hconflict : fault.isApi && fault.isConflict with
  | true =>
    obtain ⟨d, hforgotten, hd, hforgetful⟩ := gives_forgetBoth timing c
    exact hforgotten.ends_bind (ends_done ⟨hd, _, rfl, fun _ => ⟨rfl, hforgetful⟩⟩)
  | false =>
    cases fault.isApi && fault.isRateLimited with
    | true => exact ends_done ⟨.refl noKey c, _, rfl, nofun⟩
    | false => exact ends_done ⟨.refl noKey c, _, rfl, nofun⟩

/-- How the fault of a call leaves a reconciliation.  Nothing was written unless the answer was
lost; a conflict is passed on as such, and neither secret is cached any more. -/
structure PassesOn (delay : τ) (c : Cluster τ) (fault passed : Fault τ) (d : Cluster τ) : Prop where
  written : c.Abides bothKeys d ∨ c.LosesAnswers fault
  conflict : (fault.isApi && fault.isConflict) = true →
    passed = conflictFault delay fault ∧ d.IsForgetful

theorem PassesOn.abides {delay : τ} {fault passed : Fault τ} {e : Cluster τ}
    (h : c.PassesOn delay fault passed d) (hd : d.Abides noKey e) :
    c.PassesOn delay fault passed e where
  written := h.written.imp_left fun habides => habides.trans (hd.mono fun _ => False.elim)
  conflict hconflict := by
    obtain ⟨hpassed, hforgetful⟩ := h.conflict hconflict
    exact ⟨hpassed, hforgetful.abides hd⟩

/-- A reconciliation in which a call fails passes the fault on. -/
theorem yields_reconcile {tuning : Tuning τ} (hrate : Time.isZero tuning.rate = false)
    (hc : c.IsStocked) (trigger : String) :
    (reconcile tuning (.text trigger)).Yields (handle timing) FailsWith c
      (c.PassesOn tuning.conflictDelay) := by
  have hconnects := (isBookkeeping_connect (τ := τ)).callsNothing
  refine yields_bind (yields_of_callsNothing timing hconnects c _) fun _ c₁ hconnected => ?_
  have h₁ : c.Abides bothKeys c₁ := abides_of_gives timing isBookkeeping_connect hconnected
  have hsynced := yields_sync timing hrate (hc.abides h₁)
  have hhandler : ∀ fault, IsBookkeeping (do
      recordFailure (.text trigger) fault
      passOn tuning.conflictDelay {} fault : Task τ Decision) := fun fault =>
    isBookkeeping_bind (isBookkeeping_recordFailure _ _) fun _ => isBookkeeping_passOn _ _ _
  have hrecovered : ((Operator.sync tuning.rate {}).recover fun fault => do
      recordFailure (.text trigger) fault
      passOn tuning.conflictDelay {} fault).Yields (handle timing) FailsWith c₁
        (c.PassesOn tuning.conflictDelay) := by
    refine yields_recover hsynced hhandler (fun _ _ h => h.not_isInert) ?_
    rintro _ fault d ⟨rfl, hd⟩
    obtain ⟨d₁, hrecorded, hd₁⟩ := gives_recordFailure timing trigger fault d
    refine hrecorded.ends_bind ((ends_passOn timing tuning.conflictDelay fault d₁).imp ?_)
    rintro r d₂ ⟨hd₂, passed, hr, hconflict⟩
    refine ⟨passed, hr, hd.imp (fun habides => ?_) h₁.toUntouched.losesAnswers, hconflict⟩
    exact h₁.trans (habides.trans ((hd₁.trans hd₂).mono fun _ => False.elim))
  have hnow := callsNothing_ask (q := (.now : Request τ)) id
  refine Gives.yields_bind (a := c₁.clock) rfl (yields_of_callsNothing timing hnow c₁ _) ?_
  refine yields_bind (yields_always hrecovered (isBookkeeping_measureSince _ _)
    (fun _ _ h => h.not_isInert) fun fault passed d h => ?_) fun decision d _ => ?_
  · refine (ends_measureSince timing noKey c₁.clock _ d).imp fun r d' hr => ?_
    exact ⟨hr.1, h.abides hr.2⟩
  · refine yields_of_callsNothing timing (IsBookkeeping.callsNothing ?_) d _
    exact isBookkeeping_bind (isBookkeeping_recordSuccess _ _) fun _ => isBookkeeping_pure _

/-! ## Which secrets are read -/

/-- The API is asked for a secret. -/
def Reads (xs : List (Exchange (requests τ) (Fault τ))) (space name : Value) : Prop :=
  ∃ x ∈ xs, x.request = .read space name

omit [Time τ] [Time.IsExact τ] timing in
theorem Reads.mono {xs ys : List (Exchange (requests τ) (Fault τ))} {space name : Value}
    (h : Reads xs space name) (hsubset : xs ⊆ ys) : Reads ys space name := by
  obtain ⟨x, hx, hread⟩ := h
  exact ⟨x, hsubset hx, hread⟩

theorem reads_lookUp {rate : τ} (hrate : Time.isZero rate = false) {space name : Value} {key : Key}
    (hkey : Key.ofValues space name = .ok key) (hnone : c.cache.find? key = none) :
    Reads ((lookUp rate space name).trace (handle timing) c) space name := by
  have hchecked : (checked (Key.ofValues space name)).Gives (handle timing) c key c :=
    gives_ofExcept (by rw [hkey]; rfl) c
  have hget : (ask (.cacheGet key)).Gives (handle timing) c none c := by
    have hmiss : c.cache.get key c.clock = (none, c.cache) := by
      unfold Cache.get
      rw [hnone]
    refine gives_request ?_
    show (Except.ok (c.cache.get key c.clock).1,
      { c with cache := (c.cache.get key c.clock).2 }) = _
    rw [hmiss]
  obtain ⟨d, -, hturn, -⟩ := exists_turn timing hrate c
  refine ⟨⟨.read space name, (d.read space name).1⟩, ?_, rfl⟩
  refine hchecked.mem_trace_bind (hget.mem_trace_bind (mem_trace_outcome ?_))
  refine Gives.mem_trace_bind (a := c.clock) (t := c) rfl ?_
  refine mem_trace_outcome (mem_trace_outcome (mem_trace_outcome ?_))
  rw [spaced]
  exact hturn.mem_trace_bind (List.mem_singleton.2 rfl)

/-- A reconciliation that finds neither secret in the cache reads the canonical one, and the mirror
too if there is a canonical one. -/
theorem reads_reconcile {tuning : Tuning τ} (hrate : Time.isZero tuning.rate = false)
    (hc : c.IsReady) (hforgetful : c.IsForgetful) (trigger : Value) :
    Reads ((reconcile tuning trigger).trace (handle timing) c) (.text Names.configNamespace)
        (.text Names.source) ∧
      (c.server.seen .source ≠ none →
        Reads ((reconcile tuning trigger).trace (handle timing) c) (.text Names.configNamespace)
          (.text Names.target)) := by
  obtain ⟨c₁, hconnected, h₁⟩ := gives_connect timing hc.undisturbed
  have habides : c.Abides noKey c₁ := abides_of_gives timing isBookkeeping_connect hconnected
  have hc₁ := hc.later h₁.toLater
  have hforgetful₁ := hforgetful.abides habides
  have hwithin : (Operator.sync tuning.rate {}).trace (handle timing) c₁ ⊆
      (reconcile tuning trigger).trace (handle timing) c := by
    intro x hx
    refine hconnected.mem_trace_bind (Gives.mem_trace_bind (a := c₁.clock) (t := c₁) rfl ?_)
    exact mem_trace_outcome (mem_trace_outcome (mem_trace_outcome hx))
  rw [sync_eq] at hwithin
  have hkey := Key.ofValues_text Names.configNamespace Names.source
  refine ⟨.mono ?_ hwithin, fun hsome => .mono ?_ hwithin⟩
  · exact (reads_lookUp timing hrate hkey hforgetful₁.1).mono fun x hx => mem_trace_outcome hx
  · obtain ⟨c₂, hfound, h₂⟩ := gives_lookUp timing hrate hc₁.undisturbed hkey
      (hc₁.coherent .source (.inl rfl)) (hc₁.served .source (.inl rfl))
    have hends := ends_lookUp timing hrate hkey (hc₁.isStocked.served .source (.inl rfl))
      (hc₁.isStocked.cached .source (.inl rfl))
    have hne : ¬ Key.target = Key.ofTexts Names.configNamespace Names.source := by decide
    have hnone := (hends.of_gives hfound).1.find?_eq_none hne hforgetful₁.2
    rw [h₁.server] at hfound
    cases hseen : c.server.seen .source with
    | none => exact absurd hseen hsome
    | some source =>
      have hseen' : c.server.seen (.ofTexts Names.configNamespace Names.source) = some source :=
        hseen
      rw [hseen'] at hfound
      have hread := reads_lookUp timing hrate
        (Key.ofValues_text Names.configNamespace Names.target) hnone
      exact hread.mono fun x hx => hfound.mem_trace_bind (mem_trace_outcome hx)

end Cluster

end SecretMirror
