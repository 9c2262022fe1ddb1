import SecretMirror.Cluster
import SecretMirror.Proofs.Interleaving
import SecretMirror.Proofs.Secrecy.Likeness

/-!
# Two clusters that differ in the bytes of data

Two clusters are alike if they are equal but for the data that is cached, stored, or recorded as the
bodies of calls.  Asked alike requests, they give alike answers and stay alike (`Alike.handle`): no
answer but a cached or a stored secret depends on data, and no secret is posted, logged or counted.

Calls of the API are taken apart as the cluster makes them: the call is recorded and may meet a
disturbance (`Alike.meet`), then it has its effect on the server (`Alike.effect`).
-/

namespace SecretMirror

/-! ## Requests and answers -/

/-- The requests are equal but for the data of what is sent or cached. -/
inductive Operator.Request.Alike {τ : Type} : Operator.Request τ → Operator.Request τ → Prop where
  | same (q : Operator.Request τ) : Alike q q
  | cachePut {s s' : Secret} (h : s.Alike s') : Alike (.cachePut s) (.cachePut s')
  | create (space : Value) {body body' : WireSecret} (h : body.Alike body') :
      Alike (.create space body) (.create space body')
  | replace (space name : Value) {body body' : WireSecret} (h : body.Alike body') :
      Alike (.replace space name body) (.replace space name body')

/-- The answers are equal but for the data of secrets. -/
def Exchange.Alike {τ : Type} : Exchange (Operator.requests τ) (Fault τ) →
    Exchange (Operator.requests τ) (Fault τ) → Prop
  | ⟨.cacheGet _, a⟩, ⟨.cacheGet _, a'⟩ => Agree (Option.Rel Secret.Alike) a a'
  | ⟨.cachePut _, a⟩, ⟨.cachePut _, a'⟩ => a = a'
  | ⟨.read .., a⟩, ⟨.read .., a'⟩ => Agree WireSecret.Alike a a'
  | ⟨.create .., a⟩, ⟨.create .., a'⟩ => Agree (Option.Rel WireSecret.Alike) a a'
  | ⟨.replace .., a⟩, ⟨.replace .., a'⟩ => Agree (Option.Rel WireSecret.Alike) a a'
  | x, x' => x = x'

namespace Cluster

variable {τ : Type}

/-! ## Clusters -/

/-- The calls are equal but for the data section of what they send. -/
def Call.Alike (call call' : Call) : Prop :=
  ∃ body, Option.Rel WireSecret.Alike call.body body ∧ call' = { call with body := body }

/-- The clusters are equal but for the data that is cached, stored or sent.  The number of calls and
their order are the same. -/
def Alike (c c' : Cluster τ) : Prop :=
  ∃ cache server calls, c.cache.Alike cache ∧ c.server.Alike server ∧
    List.Forall₂ Call.Alike c.record.calls calls ∧
    c' = { c with cache := cache, server := server, record := { c.record with calls := calls } }

namespace Alike

variable {c c' : Cluster τ}

theorem withCache (h : c.Alike c') {cache cache' : Cache τ} (hcache : cache.Alike cache') :
    ({ c with cache := cache } : Cluster τ).Alike { c' with cache := cache' } := by
  obtain ⟨_, server, calls, -, hserver, hcalls, rfl⟩ := h
  exact ⟨cache', server, calls, hcache, hserver, hcalls, rfl⟩

theorem withServer (h : c.Alike c') {server server' : Server} (hserver : server.Alike server') :
    ({ c with server := server } : Cluster τ).Alike { c' with server := server' } := by
  obtain ⟨cache, _, calls, hcache, -, hcalls, rfl⟩ := h
  exact ⟨cache, server', calls, hcache, hserver, hcalls, rfl⟩

theorem clock (h : c.Alike c') : c'.clock = c.clock := by
  obtain ⟨_, _, _, -, -, -, rfl⟩ := h
  rfl

theorem cache (h : c.Alike c') : c.cache.Alike c'.cache := by
  obtain ⟨_, _, _, hcache, -, -, rfl⟩ := h
  exact hcache

theorem server (h : c.Alike c') : c.server.Alike c'.server := by
  obtain ⟨_, _, _, -, hserver, -, rfl⟩ := h
  exact hserver

/-! ## Calls of the API -/

theorem meet [Add τ] (h : c.Alike c') {call call' : Call} (hcall : call.Alike call') :
    ∃ d? later later', c.meet call = (d?, later) ∧ c'.meet call' = (d?, later') ∧
      later.Alike later' := by
  obtain ⟨cache, server, calls, hcache, hserver, hcalls, rfl⟩ := h
  have hlonger : List.Forall₂ Call.Alike (c.record.calls ++ [call]) (calls ++ [call']) :=
    List.rel_append hcalls (.cons hcall .nil)
  obtain ⟨body, -, rfl⟩ := hcall
  exact ⟨_, _, _, rfl, rfl, cache, server, _, hcache, hserver, hlonger, rfl⟩

theorem read [Add τ] (h : c.Alike c') (space name : Value) :
    Agree WireSecret.Alike (c.read space name).1 (c'.read space name).1 ∧
      (c.read space name).2.Alike (c'.read space name).2 := by
  have hcall : Call.Alike { verb := .read, space := space, name := name }
      { verb := .read, space := space, name := name } := ⟨none, .none, rfl⟩
  obtain ⟨d?, later, later', hmeet, hmeet', hlater⟩ := h.meet hcall
  unfold Cluster.read
  rw [hmeet, hmeet']
  cases d? with
  | some d => exact ⟨.error _, hlater⟩
  | none =>
    dsimp only
    cases Key.ofValues space name with
    | error m => exact ⟨.error _, hlater⟩
    | ok key => exact ⟨(hlater.server.read key).mapError _, hlater⟩

section Writes

variable {change change' : Server → Key → Except Refusal WireSecret × Server}
  (hchange : ∀ {s s' : Server} (key : Key), s.Alike s' →
    Agree WireSecret.Alike (change s key).1 (change' s' key).1 ∧
      (change s key).2.Alike (change' s' key).2)

include hchange

theorem effect (h : c.Alike c') (space name : Value) :
    Agree WireSecret.Alike (c.effect space name change).1 (c'.effect space name change').1 ∧
      (c.effect space name change).2.Alike (c'.effect space name change').2 := by
  unfold Cluster.effect
  cases Key.ofValues space name with
  | error m => exact ⟨.error _, h⟩
  | ok key =>
    obtain ⟨hresult, hserver⟩ := hchange key h.server
    exact ⟨hresult.mapError _, h.withServer hserver⟩

theorem write [Add τ] (h : c.Alike c') {call call' : Call} (hcall : call.Alike call') :
    Agree (Option.Rel WireSecret.Alike) (c.write call change).1 (c'.write call' change').1 ∧
      (c.write call change).2.Alike (c'.write call' change').2 := by
  obtain ⟨d?, later, later', hmeet, hmeet', hlater⟩ := h.meet hcall
  have hplace : call'.space = call.space ∧ call'.name = call.name := by
    obtain ⟨_, -, rfl⟩ := hcall
    exact ⟨rfl, rfl⟩
  unfold Cluster.write
  rw [hmeet, hmeet', hplace.1, hplace.2]
  obtain ⟨hresult, hdone⟩ := effect hchange hlater call.space call.name
  cases d? with
  | none =>
    refine ⟨hresult.map fun stored stored' hstored => ?_, hdone⟩
    have hanswers : (later'.effect call.space call.name change').2.answersWrites =
        (later.effect call.space call.name change).2.answersWrites := by
      obtain ⟨_, _, _, -, -, -, heq⟩ := hdone
      rw [heq]
    rw [hanswers]
    split
    · exact .some hstored
    · exact .none
  | some d =>
    dsimp only
    split
    · exact ⟨hresult.bind fun _ _ _ => .error _, hdone⟩
    · exact ⟨.error _, hlater⟩

end Writes

/-! ## Every request -/

theorem changeCache (h : c.Alike c') {change change' : Except Malformed (Cache τ)}
    (hchange : Agree Cache.Alike change change') :
    (c.changeCache change).1 = (c'.changeCache change').1 ∧
      (c.changeCache change).2.Alike (c'.changeCache change').2 := by
  cases hchange with
  | ok hcache => exact ⟨rfl, h.withCache hcache⟩
  | error m => exact ⟨rfl, h⟩

theorem post (h : c.Alike c') (event : Operator.Event) :
    (c.post event).1 = (c'.post event).1 ∧ (c.post event).2.Alike (c'.post event).2 := by
  obtain ⟨cache, server, calls, hcache, hserver, hcalls, rfl⟩ := h
  unfold Cluster.post
  dsimp only
  split
  · exact ⟨rfl, cache, server, calls, hcache, hserver, hcalls, rfl⟩
  · exact ⟨rfl, cache, server, calls, hcache, hserver, hcalls, rfl⟩

theorem configure (h : c.Alike c') (source : ClientSource) :
    (c.configure source).1 = (c'.configure source).1 ∧
      (c.configure source).2.Alike (c'.configure source).2 := by
  obtain ⟨cache, server, calls, hcache, hserver, hcalls, rfl⟩ := h
  unfold Cluster.configure
  dsimp only
  split
  · exact ⟨rfl, cache, server, calls, hcache, hserver, hcalls, rfl⟩
  · exact ⟨rfl, cache, server, calls, hcache, hserver, hcalls, rfl⟩

variable [Time τ] (timing : Resync.Timing τ)

omit [Time τ] in
theorem cachePut (h : c.Alike c') {s s' : Secret} (hs : s.Alike s') :
    (c.changeCache (c.cache.putOwn s c.clock)).1 =
        (c'.changeCache (c'.cache.putOwn s' c'.clock)).1 ∧
      (c.changeCache (c.cache.putOwn s c.clock)).2.Alike
        (c'.changeCache (c'.cache.putOwn s' c'.clock)).2 := by
  rw [h.clock]
  exact h.changeCache (h.cache.putOwn hs c.clock)

theorem cacheGet (h : c.Alike c') (key : Key) :
    Option.Rel Secret.Alike (c.cache.get key c.clock).1 (c'.cache.get key c'.clock).1 ∧
      ({ c with cache := (c.cache.get key c.clock).2 } : Cluster τ).Alike
        { c' with cache := (c'.cache.get key c'.clock).2 } := by
  have hget : c'.cache.get key c'.clock = c'.cache.get key c.clock := by rw [h.clock]
  rw [hget]
  obtain ⟨hfound, hcache⟩ := h.cache.get key c.clock
  exact ⟨hfound, h.withCache hcache⟩

theorem create (h : c.Alike c') (space : Value) {body body' : WireSecret}
    (hbody : body.Alike body') :
    Agree (Option.Rel WireSecret.Alike) (c.create space body).1 (c'.create space body').1 ∧
      (c.create space body).2.Alike (c'.create space body').2 := by
  refine h.write (fun key hserver => hserver.create key hbody) ?_
  obtain ⟨data, hdata, rfl⟩ := hbody
  exact ⟨some _, .some ⟨data, hdata, rfl⟩, rfl⟩

theorem replace (h : c.Alike c') (space name : Value) {body body' : WireSecret}
    (hbody : body.Alike body') :
    Agree (Option.Rel WireSecret.Alike) (c.replace space name body).1
        (c'.replace space name body').1 ∧
      (c.replace space name body).2.Alike (c'.replace space name body').2 := by
  refine h.write (fun key hserver => hserver.replace key hbody) ?_
  exact ⟨some _, .some hbody, rfl⟩

/-- Alike requests are answered alike, and leave the clusters alike. -/
theorem handle (h : c.Alike c') {q q' : (Operator.requests τ).Request} (hq : q.Alike q') :
    Exchange.Alike ⟨q, (Cluster.handle timing q c).1⟩ ⟨q', (Cluster.handle timing q' c').1⟩ ∧
      (Cluster.handle timing q c).2.Alike (Cluster.handle timing q' c').2 := by
  cases hq with
  | cachePut hs => exact h.cachePut hs
  | create space hbody => exact h.create space hbody
  | replace space name hbody => exact h.replace space name hbody
  | same q =>
    cases q with
    | cacheGet key =>
      obtain ⟨hfound, hlater⟩ := h.cacheGet key
      exact ⟨.ok hfound, hlater⟩
    | cachePut s => exact h.cachePut (.refl s)
    | read space name => exact h.read space name
    | create space body => exact h.create space (.refl body)
    | replace space name body => exact h.replace space name (.refl body)
    | cacheForget space name =>
      obtain ⟨hanswer, hlater⟩ := h.changeCache (h.cache.forgetValues space name)
      exact ⟨congrArg _ hanswer, hlater⟩
    | post event =>
      obtain ⟨hanswer, hlater⟩ := h.post event
      exact ⟨congrArg _ hanswer, hlater⟩
    | clusterConfig =>
      obtain ⟨hanswer, hlater⟩ := h.configure .cluster
      exact ⟨congrArg _ hanswer, hlater⟩
    | fileConfig =>
      obtain ⟨hanswer, hlater⟩ := h.configure .file
      exact ⟨congrArg _ hanswer, hlater⟩
    | _ =>
      -- What is left reads and changes nothing that may differ.
      obtain ⟨cache, server, calls, hcache, hserver, hcalls, rfl⟩ := h
      exact ⟨rfl, cache, server, calls, hcache, hserver, hcalls, rfl⟩

end Alike

end Cluster

end SecretMirror
