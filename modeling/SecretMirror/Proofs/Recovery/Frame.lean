import SecretMirror.Proofs.Bookkeeping
import SecretMirror.Proofs.Convergence.Access

/-!
# What stays when calls are disturbed

Calls may fail here, so a cluster need not be undisturbed.  Two states are `Cluster.Untouched` if
between them nothing was written and nothing emitted.  `Cluster.Abides` adds what became of the
cache: time may have passed and entries may have gone, and what has come in shows what the server
has, under one of the keys that are named.  Bookkeeping abides (`abides_of_isBookkeeping`), and so
does every call that fails, but for a write whose answer is lost; `write_cases` lists what can
become of a write.

Every write that succeeds gives out one version, and nothing else does.  So the server counts the
successful writes (`version_run`), as long as no answer is lost.
-/

namespace SecretMirror.Operator

def hasWritten {τ : Type} : Exchange (requests τ) (Fault τ) → Bool
  | ⟨.create .., .ok _⟩ => true
  | ⟨.replace .., .ok _⟩ => true
  | _ => false

end SecretMirror.Operator

namespace SecretMirror.Cluster

open Operator
open Program hiding bind ask

variable {τ : Type} {c d e : Cluster τ}

/-- Nothing was written and nothing emitted, and the calls that may still fail were to fail
before. -/
structure Untouched (c d : Cluster τ) : Prop where
  server : d.server = c.server
  events : d.record.events = c.record.events
  /-- What may be met now might have been met before. -/
  disturbances : ∀ verb x, d.disturbances verb = some x →
    ∃ y, c.disturbances verb = some y ∧ y.fault = x.fault ∧ y.isLate = x.isLate

/-- A write may take effect although it fails with this fault. -/
def LosesAnswers (c : Cluster τ) (fault : Fault τ) : Prop :=
  ∃ verb x, c.disturbances verb = some x ∧ x.isLate = true ∧ x.fault = fault

/-- No answer is lost: calls that fail have no effect. -/
def IsPrompt (c : Cluster τ) : Prop :=
  ∀ verb x, c.disturbances verb = some x → x.isLate = false

namespace Untouched

theorem refl (c : Cluster τ) : c.Untouched c := ⟨rfl, rfl, fun _ x hx => ⟨x, hx, rfl, rfl⟩⟩

theorem trans (h : c.Untouched d) (h' : d.Untouched e) : c.Untouched e where
  server := h'.server.trans h.server
  events := h'.events.trans h.events
  disturbances verb x hx := by
    obtain ⟨y, hy, hfault, hlate⟩ := h'.disturbances verb x hx
    obtain ⟨z, hz, hfault', hlate'⟩ := h.disturbances verb y hy
    exact ⟨z, hz, hfault'.trans hfault, hlate'.trans hlate⟩

theorem losesAnswers (h : c.Untouched d) {fault : Fault τ} (hd : d.LosesAnswers fault) :
    c.LosesAnswers fault := by
  obtain ⟨verb, x, hx, hlate, hfault⟩ := hd
  obtain ⟨y, hy, hfault', hlate'⟩ := h.disturbances verb x hx
  exact ⟨verb, y, hy, hlate'.trans hlate, hfault'.trans hfault⟩

theorem isPrompt (h : c.Untouched d) (hc : c.IsPrompt) : d.IsPrompt := by
  intro verb x hx
  obtain ⟨y, hy, -, hlate⟩ := h.disturbances verb x hx
  rw [← hlate]
  exact hc verb y hy

end Untouched

variable [Time τ] {keys others : Key → Prop}

/-- Nothing was written and nothing emitted, and what has come into the cache is what the server has
under one of the keys. -/
structure Abides (keys : Key → Prop) (c d : Cluster τ) : Prop extends c.Untouched d where
  clock : 0 ≤ c.latency → c.clock ≤ d.clock
  latency : d.latency = c.latency
  ttl : d.cache.ttl = c.cache.ttl
  cached : ∀ key e, d.cache.find? key = some e →
    c.cache.find? key = some e ∨ (keys key ∧ c.server.seen key = some e.secret)

namespace Abides

theorem mono (h : c.Abides keys d) (hkeys : ∀ key, keys key → others key) :
    c.Abides others d where
  toUntouched := h.toUntouched
  clock := h.clock
  latency := h.latency
  ttl := h.ttl
  cached key e he := (h.cached key e he).imp_right fun hseen => ⟨hkeys key hseen.1, hseen.2⟩

theorem of_same (h : c.Untouched d) (hclock : 0 ≤ c.latency → c.clock ≤ d.clock)
    (hlatency : d.latency = c.latency) (hcache : d.cache = c.cache) : c.Abides keys d where
  toUntouched := h
  clock := hclock
  latency := hlatency
  ttl := by rw [hcache]
  cached key e he := .inl (by rw [← hcache]; exact he)

variable [Time.IsExact τ]

theorem refl (keys : Key → Prop) (c : Cluster τ) : c.Abides keys c :=
  .of_same (.refl c) (fun _ => Time.le_refl c.clock) rfl rfl

theorem trans (h : c.Abides keys d) (h' : d.Abides keys e) : c.Abides keys e where
  toUntouched := h.toUntouched.trans h'.toUntouched
  clock hlatency := by
    have hlatency' : 0 ≤ d.latency := by rw [h.latency]; exact hlatency
    exact Time.IsExact.le_trans (h.clock hlatency) (h'.clock hlatency')
  latency := h'.latency.trans h.latency
  ttl := h'.ttl.trans h.ttl
  cached key e he := by
    rcases h'.cached key e he with hfind | ⟨hkey, hseen⟩
    · exact h.cached key e hfind
    · rw [h.server] at hseen
      exact .inr ⟨hkey, hseen⟩

theorem of_cache {cache : Cache τ} (httl : cache.ttl = c.cache.ttl)
    (hfind : ∀ key e, cache.find? key = some e →
      c.cache.find? key = some e ∨ (keys key ∧ c.server.seen key = some e.secret)) :
    c.Abides keys { c with cache := cache } where
  toUntouched := ⟨rfl, rfl, fun _ x hx => ⟨x, hx, rfl, rfl⟩⟩
  clock _ := Time.le_refl c.clock
  latency := rfl
  ttl := httl
  cached := hfind

/-- What is cached stays coherent, whatever has come in. -/
theorem coherent (h : c.Abides keys d) (hlatency : 0 ≤ c.latency) {key : Key}
    (hc : c.Coherent key) : d.Coherent key := by
  intro e he
  rcases h.cached key e he with hfind | ⟨-, hseen⟩
  · rcases hc e hfind with hexpired | hshows
    · left
      have hlater := Cache.isExpired_mono (h.clock hlatency) hexpired
      simpa only [Cache.isExpired, h.ttl] using hlater
    · right
      rw [h.server]
      exact hshows
  · right
    rw [h.server]
    exact hseen

end Abides

/-! ## Bookkeeping -/

variable (timing : Resync.Timing τ)

omit [Time τ] in
theorem untouched_changeCache (change : Except Malformed (Cache τ)) (c : Cluster τ) :
    c.Untouched (c.changeCache change).2 := by
  cases change with
  | error reason => exact .refl c
  | ok cache => exact ⟨rfl, rfl, fun _ x hx => ⟨x, hx, rfl, rfl⟩⟩

variable [Time.IsExact τ]

theorem abides_configure (source : ClientSource) (c : Cluster τ) :
    c.Abides keys (c.configure source).2 := by
  have huntouched : c.Untouched (c.configure source).2 := by
    unfold configure
    dsimp only
    split <;> exact ⟨rfl, rfl, fun _ x hx => ⟨x, hx, rfl, rfl⟩⟩
  have hsame : (c.configure source).2.clock = c.clock ∧
      (c.configure source).2.latency = c.latency ∧ (c.configure source).2.cache = c.cache := by
    unfold configure
    dsimp only
    split <;> exact ⟨rfl, rfl, rfl⟩
  obtain ⟨hclock, hlatency, hcache⟩ := hsame
  refine .of_same huntouched (fun _ => ?_) hlatency hcache
  rw [hclock]
  exact Time.le_refl c.clock

theorem abides_cacheGet (key : Key) (c : Cluster τ) :
    c.Abides keys (handle timing (.cacheGet key) c).2 :=
  .of_cache (Cache.ttl_get ..) fun _ _ he => .inl (Cache.find?_of_find?_get _ _ _ he)

theorem abides_of_isInert {q : (requests τ).Request} (hq : q.IsInert) (c : Cluster τ) :
    c.Abides keys (handle timing q c).2 := by
  have hplans : ∀ verb x, c.disturbances verb = some x →
      ∃ y, c.disturbances verb = some y ∧ y.fault = x.fault ∧ y.isLate = x.isLate :=
    fun _ x hx => ⟨x, hx, rfl, rfl⟩
  have hclock : 0 ≤ c.latency → c.clock ≤ c.clock := fun _ => Time.le_refl c.clock
  cases q with
  | cacheForget space name =>
    show c.Abides keys (c.changeCache (c.cache.forgetValues space name)).2
    cases hforget : c.cache.forgetValues space name with
    | error reason => exact .refl keys c
    | ok cache =>
      exact .of_cache (Cache.ttl_of_forgetValues hforget) fun key e he =>
        .inl (Cache.find?_of_forgetValues hforget he)
  | clusterConfig => exact abides_configure .cluster c
  | fileConfig => exact abides_configure .file c
  | now => exact .refl keys c
  | lastCall => exact .refl keys c
  | recordCall time => exact .of_same ⟨rfl, rfl, hplans⟩ hclock rfl rfl
  | measure update => exact .of_same ⟨rfl, rfl, hplans⟩ hclock rfl rfl
  | log line => exact .of_same ⟨rfl, rfl, hplans⟩ hclock rfl rfl
  | schedule step => exact .of_same ⟨rfl, rfl, hplans⟩ hclock rfl rfl
  | sleep time => exact hq.elim
  | cachePut secret => exact hq.elim
  | read space name => exact hq.elim
  | create space body => exact hq.elim
  | replace space name body => exact hq.elim
  | post event => exact hq.elim
  | cacheGet key => exact hq.elim

theorem abides_of_isBookkeeping {α : Type} {p : Task τ α} (hp : IsBookkeeping p) (c : Cluster τ) :
    c.Abides keys (p.run (handle timing) c).2 :=
  hp.relates (Abides.refl keys) Abides.trans (fun _ c hq => abides_of_isInert timing hq c) c

/-! ## Calls -/

omit [Time τ] [Time.IsExact τ] in
theorem Disturbance.spent_cases {planned x : Disturbance τ} (h : planned.spent = some x) :
    planned.fault = x.fault ∧ planned.isLate = x.isLate := by
  unfold Disturbance.spent at h
  split at h
  · cases h
    exact ⟨rfl, rfl⟩
  · split at h
    · cases h
    · cases h
      exact ⟨rfl, rfl⟩

omit [Time τ] [Time.IsExact τ] in
/-- What a call meets was planned, and what is planned afterwards was planned before. -/
theorem Disturbances.meet_cases (ds : Disturbances τ) (verb : Verb) (name : Value) :
    (∀ x, (ds.meet verb name).1 = some x → ds verb = some x) ∧
      ∀ other x, (ds.meet verb name).2 other = some x →
        ∃ y, ds other = some y ∧ y.fault = x.fault ∧ y.isLate = x.isLate := by
  unfold Disturbances.meet
  cases hplan : ds verb with
  | none => exact ⟨nofun, fun other x hx => ⟨x, hx, rfl, rfl⟩⟩
  | some planned =>
    dsimp only
    split
    · refine ⟨fun x hx => hx, fun other x hx => ?_⟩
      unfold Disturbances.plan at hx
      dsimp only at hx
      split at hx
      · next heq =>
        rw [heq]
        exact ⟨planned, hplan, Disturbance.spent_cases hx⟩
      · exact ⟨x, hx, rfl, rfl⟩
    · exact ⟨nofun, fun other x hx => ⟨x, hx, rfl, rfl⟩⟩

theorem abides_meet (call : Call) (c : Cluster τ) : c.Abides keys (c.meet call).2 where
  toUntouched := ⟨rfl, rfl, (Disturbances.meet_cases c.disturbances call.verb call.name).2⟩
  clock hlatency := Time.IsExact.le_add_of_nonneg c.clock hlatency
  latency := rfl
  ttl := rfl
  cached _ _ he := .inl he

theorem abides_read (space name : Value) (c : Cluster τ) :
    c.Abides keys (c.read space name).2 := by
  have hmeet : c.Abides keys (c.meet { verb := .read, space := space, name := name }).2 :=
    abides_meet _ c
  unfold read
  generalize c.meet { verb := .read, space := space, name := name } = met at hmeet ⊢
  obtain ⟨x?, d⟩ := met
  cases x? with
  | some x => exact hmeet
  | none =>
    dsimp only
    cases Key.ofValues space name with
    | error reason => exact hmeet
    | ok key => exact hmeet

omit [Time.IsExact τ] in
theorem objects_of_read {space name : Value} {key : Key} (hkey : Key.ofValues space name = .ok key)
    {w : WireSecret} (h : (c.read space name).1 = .ok w) : c.server.objects key = some w := by
  have hserver : (c.meet { verb := .read, space := space, name := name }).2.server = c.server := rfl
  unfold read at h
  generalize c.meet { verb := .read, space := space, name := name } = met at hserver h
  obtain ⟨x?, d⟩ := met
  cases x? with
  | some x => cases h
  | none =>
    dsimp only at hserver h
    rw [hkey] at h
    dsimp only at h
    unfold Server.read at h
    rw [hserver] at h
    cases hobject : c.server.objects key with
    | none => simp [hobject, Except.mapError] at h
    | some stored => simpa [hobject, Except.mapError] using h

/-- What can become of a write: it fails without effect, it takes effect and the answer is lost, or
it takes effect and is answered. -/
inductive Undergoes (c : Cluster τ) (call : Call)
    (change : Server → Key → Except Refusal WireSecret × Server) :
    Except (Fault τ) (Option WireSecret) → Cluster τ → Prop where
  /-- It fails and has no effect. -/
  | fails {fault : Fault τ} {d : Cluster τ} (habides : ∀ keys, c.Abides keys d) :
    Undergoes c call change (.error fault) d
  /-- It fails with the fault of a disturbance that comes after the effect. -/
  | loses {x : Disturbance τ} {d : Cluster τ} (hplan : c.disturbances call.verb = some x)
      (hlate : x.isLate = true) : Undergoes c call change (.error x.fault) d
  /-- It takes effect, and the answer arrives. -/
  | succeeds {key : Key} {stored : WireSecret} {raw : Option WireSecret} {d : Cluster τ}
      (hkey : Key.ofValues call.space call.name = .ok key)
      (hstored : (change c.server key).1 = .ok stored)
      (huntouched : c.Untouched { d with server := c.server })
      (hserver : d.server = (change c.server key).2) :
    Undergoes c call change (.ok raw) d

/-- The server takes a change or leaves everything as it is. -/
def Refuses (change : Server → Key → Except Refusal WireSecret × Server) : Prop :=
  ∀ s key refusal, (change s key).1 = .error refusal → (change s key).2 = s

omit [Time τ] [Time.IsExact τ] in
theorem refuses_create (body : WireSecret) :
    Refuses fun server key => server.create key body := by
  intro s key refusal h
  change (s.create key body).1 = _ at h
  show (s.create key body).2 = s
  unfold Server.create at h ⊢
  cases hobject : s.objects key with
  | none =>
    rw [hobject] at h
    cases h
  | some old => rfl

omit [Time τ] [Time.IsExact τ] in
theorem refuses_replace (body : WireSecret) :
    Refuses fun server key => server.replace key body := by
  intro s key refusal h
  change (s.replace key body).1 = _ at h
  show (s.replace key body).2 = s
  unfold Server.replace at h ⊢
  cases hobject : s.objects key with
  | none => rfl
  | some old =>
    rw [hobject] at h
    dsimp only at h ⊢
    split at h
    · cases h
    · next hversion => rw [if_neg hversion]

omit [Time τ] [Time.IsExact τ] in
theorem effect_cases {change : Server → Key → Except Refusal WireSecret × Server}
    (hchange : Refuses change) (space name : Value) (c : Cluster τ) :
    (∃ fault, c.effect space name change = (.error fault, c)) ∨
      ∃ key stored, Key.ofValues space name = .ok key ∧ (change c.server key).1 = .ok stored ∧
        c.effect space name change =
          (.ok stored, { c with server := (change c.server key).2 }) := by
  unfold effect
  cases hkey : Key.ofValues space name with
  | error reason => exact .inl ⟨_, rfl⟩
  | ok key =>
    dsimp only
    cases hresult : (change c.server key).1 with
    | error refusal =>
      left
      rw [hchange c.server key refusal hresult]
      exact ⟨_, rfl⟩
    | ok stored => exact .inr ⟨key, stored, rfl, hresult, rfl⟩

theorem write_cases {change : Server → Key → Except Refusal WireSecret × Server}
    (hchange : Refuses change) (call : Call) (c : Cluster τ) :
    c.Undergoes call change (c.write call change).1 (c.write call change).2 := by
  have hmeet : ∀ keys, c.Abides keys (c.meet call).2 := fun keys => abides_meet call c
  have hplan : ∀ x, (c.meet call).1 = some x → c.disturbances call.verb = some x :=
    (Disturbances.meet_cases c.disturbances call.verb call.name).1
  unfold write
  generalize c.meet call = met at hmeet hplan ⊢
  obtain ⟨x?, d⟩ := met
  have heffect := effect_cases hchange call.space call.name d
  have hserver : d.server = c.server := (hmeet fun _ => True).server
  dsimp only
  cases x? with
  | some x =>
    dsimp only
    split
    · next hlate =>
      rcases heffect with ⟨fault, hrefused⟩ | ⟨key, stored, -, -, htaken⟩
      · rw [hrefused]
        exact .fails hmeet
      · rw [htaken]
        exact .loses (hplan x rfl) hlate
    · exact .fails hmeet
  | none =>
    dsimp only
    rcases heffect with ⟨fault, hrefused⟩ | ⟨key, stored, hkey, hstored, htaken⟩
    · rw [hrefused]
      exact .fails hmeet
    · rw [hserver] at hstored
      rw [htaken]
      have huntouched := (hmeet fun _ => True).toUntouched
      refine .succeeds hkey hstored ⟨rfl, huntouched.events, huntouched.disturbances⟩ ?_
      show (change d.server key).2 = _
      rw [hserver]

/-! ## Versions -/

/-- A change that the server takes gives out one version. -/
def Counts (change : Server → Key → Except Refusal WireSecret × Server) : Prop :=
  ∀ s key stored, (change s key).1 = .ok stored → (change s key).2.version = s.version + 1

omit [Time τ] [Time.IsExact τ] in
theorem counts_create (body : WireSecret) : Counts fun server key => server.create key body := by
  intro s key stored h
  change (s.create key body).1 = _ at h
  show (s.create key body).2.version = _
  unfold Server.create at h ⊢
  cases hobject : s.objects key with
  | none => rfl
  | some old =>
    rw [hobject] at h
    cases h

omit [Time τ] [Time.IsExact τ] in
theorem counts_replace (body : WireSecret) : Counts fun server key => server.replace key body := by
  intro s key stored h
  change (s.replace key body).1 = _ at h
  show (s.replace key body).2.version = _
  unfold Server.replace at h ⊢
  cases hobject : s.objects key with
  | none =>
    rw [hobject] at h
    cases h
  | some old =>
    rw [hobject] at h
    dsimp only at h ⊢
    split at h
    · next hversion =>
      rw [if_pos hversion]
      rfl
    · cases h

theorem version_write {change : Server → Key → Except Refusal WireSecret × Server}
    (hchange : Refuses change) (hcounts : Counts change) (hc : c.IsPrompt) (call : Call) :
    (c.write call change).2.IsPrompt ∧ (c.write call change).2.server.version =
      c.server.version + if (c.write call change).1.isOk then 1 else 0 := by
  have hcases := write_cases hchange call c
  generalize c.write call change = written at hcases ⊢
  obtain ⟨result, d⟩ := written
  cases hcases with
  | fails habides =>
    have huntouched := (habides fun _ => False).toUntouched
    exact ⟨huntouched.isPrompt hc, congrArg Server.version huntouched.server⟩
  | loses hplan hlate =>
    rw [hc _ _ hplan] at hlate
    cases hlate
  | succeeds hkey hstored huntouched hserver =>
    refine ⟨huntouched.isPrompt hc, ?_⟩
    rw [hserver]
    exact hcounts c.server _ _ hstored

theorem untouched_of_isHarmless {q : (requests τ).Request} (hq : q.IsHarmless) (c : Cluster τ) :
    c.Untouched (handle timing q c).2 := by
  have hinert : q.IsInert → c.Untouched (handle timing q c).2 := by
    intro hq
    have habides : c.Abides (fun _ => False) (handle timing q c).2 := abides_of_isInert timing hq c
    exact habides.toUntouched
  cases q with
  | sleep time => exact ⟨rfl, rfl, fun _ x hx => ⟨x, hx, rfl, rfl⟩⟩
  | cacheGet key =>
    have habides : c.Abides (fun _ => False) (handle timing (.cacheGet key) c).2 :=
      abides_cacheGet timing key c
    exact habides.toUntouched
  | cachePut secret => exact untouched_changeCache (c.cache.putOwn secret c.clock) c
  | read space name =>
    have habides : c.Abides (fun _ => False) (c.read space name).2 := abides_read space name c
    exact habides.toUntouched
  | create space body => exact hq.elim
  | replace space name body => exact hq.elim
  | post event => exact hq.elim
  | _ => exact hinert trivial

/-- While no answer is lost, a request gives out a version exactly if it is a write that
succeeds. -/
theorem version_handle (hc : c.IsPrompt) (q : (requests τ).Request) :
    (handle timing q c).2.IsPrompt ∧
      (handle timing q c).2.server.version =
        c.server.version + if hasWritten ⟨q, (handle timing q c).1⟩ then 1 else 0 := by
  have hharmless : q.IsHarmless → hasWritten ⟨q, (handle timing q c).1⟩ = false →
      (handle timing q c).2.IsPrompt ∧ (handle timing q c).2.server.version =
        c.server.version + if hasWritten ⟨q, (handle timing q c).1⟩ then 1 else 0 := by
    intro hq hwritten
    have huntouched := untouched_of_isHarmless timing hq c
    rw [hwritten, huntouched.server]
    exact ⟨huntouched.isPrompt hc, rfl⟩
  have hwrite : ∀ {call : Call} {change : Server → Key → Except Refusal WireSecret × Server},
      Refuses change → Counts change →
      (hasWritten ⟨q, (handle timing q c).1⟩ = (c.write call change).1.isOk) →
      (handle timing q c).2 = (c.write call change).2 →
      (handle timing q c).2.IsPrompt ∧ (handle timing q c).2.server.version =
        c.server.version + if hasWritten ⟨q, (handle timing q c).1⟩ then 1 else 0 := by
    intro call change hchange hcounts hwritten hstate
    rw [hwritten, hstate]
    exact version_write hchange hcounts hc call
  -- Only the two writes reach the versions of the server; all other requests leave it as it is.
  cases q with
  | create space body =>
    refine hwrite (refuses_create body) (counts_create body) ?_ rfl
    show hasWritten ⟨.create space body, (c.create space body).1⟩ = (c.create space body).1.isOk
    cases (c.create space body).1 <;> rfl
  | replace space name body =>
    refine hwrite (refuses_replace body) (counts_replace body) ?_ rfl
    show hasWritten ⟨.replace space name body, (c.replace space name body).1⟩ =
      (c.replace space name body).1.isOk
    cases (c.replace space name body).1 <;> rfl
  | post event =>
    show (c.post event).2.IsPrompt ∧ (c.post event).2.server.version = c.server.version
    unfold post
    split
    · exact ⟨hc, rfl⟩
    · exact ⟨hc, rfl⟩
  | _ => exact hharmless trivial rfl

/-- While no answer is lost, the server counts the writes of a run that succeed. -/
theorem version_run {α : Type} (p : Task τ α) (hc : c.IsPrompt) :
    (p.run (handle timing) c).2.server.version =
      c.server.version + (p.trace (handle timing) c).countP hasWritten := by
  induction p generalizing c with
  | done r => rfl
  | ask q next ih =>
    obtain ⟨hprompt, hversion⟩ := version_handle timing hc q
    rw [run_ask, ih _ hprompt, hversion, trace_ask, List.countP_cons, Nat.add_assoc,
      Nat.add_comm (List.countP _ _)]

end SecretMirror.Cluster
