import SecretMirror.Proofs.Relational
import SecretMirror.Proofs.CacheView
import SecretMirror.Proofs.SecretTraffic

/-!
# What a synchronisation goes by

A synchronisation goes by the secrets that are cached, by what the server stores, and by the faults
that its calls meet.  Two clusters that agree in these show it the same (`Cluster.ShowsAs`),
whatever their clocks, the age of what is cached, and all that has been counted and recorded so far.

Such a synchronisation may still go two ways, but only because an entry is too old in one cluster
and not in the other.  So programs are compared from clusters that show the same, as long as the
same look-ups find a secret in the cache (`Operator.hits`).  Then they come to the same result with
the same traffic about secrets and leave clusters that show the same again (`Operator.RunsAlike`).
The rules follow the operations on programs, and what a program does aside, such as to wait for its
turn, may differ.
-/

namespace SecretMirror

open Operator
open Program hiding bind ask

variable {τ α β : Type}

/-! ## What is cached -/

namespace Cache

/-- The secret that is stored under a key, whatever its age. -/
def secret? (c : Cache τ) (key : Key) : Option Secret := (c.find? key).map Entry.secret

/-- The same secrets are stored under the same keys, in whatever order and since whatever times. -/
def ShowsAs (c c' : Cache τ) : Prop := ∀ key, c.secret? key = c'.secret? key

variable {c c' : Cache τ}

theorem secret?_put (c : Cache τ) (key other : Key) (s : Secret) (now : τ) :
    (c.put key s now).secret? other = if other = key then some s else c.secret? other := by
  unfold secret?
  rw [find?_put]
  split <;> rfl

theorem secret?_forget (c : Cache τ) (key other : Key) :
    (c.forget key).secret? other = if other = key then none else c.secret? other := by
  unfold secret?
  rw [find?_forget]
  split <;> rfl

namespace ShowsAs

theorem put (h : c.ShowsAs c') (key : Key) (s : Secret) (now now' : τ) :
    (c.put key s now).ShowsAs (c'.put key s now') := by
  intro other
  rw [secret?_put, secret?_put, h other]

theorem forget (h : c.ShowsAs c') (key : Key) : (c.forget key).ShowsAs (c'.forget key) := by
  intro other
  rw [secret?_forget, secret?_forget, h other]

/-- Whatever is cached lies under some key, so a cache that shows nothing is empty. -/
theorem slots_eq_nil (h : c.ShowsAs c') (hempty : c.slots = []) : c'.slots = [] := by
  cases hslots : c'.slots with
  | nil => rfl
  | cons slot rest =>
    have hshown := h slot.key
    simp [secret?, find?, hempty, hslots, lookup] at hshown

theorem putOwn (h : c.ShowsAs c') (s : Secret) (now now' : τ) :
    Agree ShowsAs (c.putOwn s now) (c'.putOwn s now') := by
  unfold Cache.putOwn
  cases s.key with
  | error m => exact .error m
  | ok key => exact .ok (h.put key s now now')

theorem forgetValues (h : c.ShowsAs c') (space name : Value) :
    Agree ShowsAs (c.forgetValues space name) (c'.forgetValues space name) := by
  have hempty : c.slots.isEmpty = c'.slots.isEmpty := by
    rw [Bool.eq_iff_iff, List.isEmpty_iff, List.isEmpty_iff]
    exact ⟨h.slots_eq_nil, ShowsAs.slots_eq_nil fun key => (h key).symm⟩
  unfold Cache.forgetValues
  rw [hempty]
  split
  · exact .ok h
  · cases Key.ofValues space name with
    | error m => exact .error m
    | ok key => exact .ok (h.forget key)

end ShowsAs

variable [Time τ]

theorem get_eq_some {key : Key} {now : τ} {s : Secret} (h : (c.get key now).1 = some s) :
    c.secret? key = some s ∧ (c.get key now).2 = c := by
  obtain ⟨e, hfound, hfresh, rfl⟩ := find?_of_get c key now h
  refine ⟨by rw [secret?, hfound]; rfl, ?_⟩
  rw [get, hfound]
  simp [hfresh]

theorem secret?_get_of_miss {key : Key} {now : τ} (h : (c.get key now).1 = none) (other : Key) :
    (c.get key now).2.secret? other = if other = key then none else c.secret? other := by
  unfold secret?
  rw [find?_get_of_miss c h]
  split <;> rfl

/-- If both caches hand something out under a key or neither does, it is the same. -/
theorem ShowsAs.get (h : c.ShowsAs c') {key : Key} {now now' : τ}
    (hhit : (c.get key now).1.isSome = (c'.get key now').1.isSome) :
    (c.get key now).1 = (c'.get key now').1 ∧ (c.get key now).2.ShowsAs (c'.get key now').2 := by
  cases hfound : (c.get key now).1 with
  | none =>
    have hmissed : (c'.get key now').1 = none := by simpa [hfound] using hhit.symm
    refine ⟨hmissed.symm, fun other => ?_⟩
    rw [secret?_get_of_miss hfound, secret?_get_of_miss hmissed, h other]
  | some s =>
    obtain ⟨s', hfound'⟩ : ∃ s', (c'.get key now').1 = some s' := by
      rw [← Option.isSome_iff_exists, ← hhit, hfound]
      rfl
    obtain ⟨hstored, hsame⟩ := get_eq_some hfound
    obtain ⟨hstored', hsame'⟩ := get_eq_some hfound'
    rw [hsame, hsame', hfound', ← hstored, ← hstored', h key]
    exact ⟨rfl, h⟩

end Cache

/-! ## What a cluster shows -/

namespace Cluster

/-- The clusters show the same: the cached secrets, the server, and the faults that are to be met.
All else may differ, above all the clocks. -/
structure ShowsAs (c c' : Cluster τ) : Prop where
  cache : c.cache.ShowsAs c'.cache
  server : c.server = c'.server
  disturbances : c.disturbances = c'.disturbances
  answersWrites : c.answersWrites = c'.answersWrites
  eventFault : c.eventFault = c'.eventFault

namespace ShowsAs

variable {c c' d : Cluster τ}

theorem refl (c : Cluster τ) : c.ShowsAs c := ⟨fun _ => rfl, rfl, rfl, rfl, rfl⟩

theorem symm (h : c.ShowsAs c') : c'.ShowsAs c :=
  ⟨fun key => (h.cache key).symm, h.server.symm, h.disturbances.symm, h.answersWrites.symm,
    h.eventFault.symm⟩

theorem trans (h : c.ShowsAs c') (h' : c'.ShowsAs d) : c.ShowsAs d :=
  ⟨fun key => (h.cache key).trans (h'.cache key), h.server.trans h'.server,
    h.disturbances.trans h'.disturbances, h.answersWrites.trans h'.answersWrites,
    h.eventFault.trans h'.eventFault⟩

theorem withCache (h : c.ShowsAs c') {cache cache' : Cache τ} (hcache : cache.ShowsAs cache') :
    ShowsAs { c with cache := cache } { c' with cache := cache' } :=
  { h with cache := hcache }

theorem changeCache (h : c.ShowsAs c') {change change' : Except Malformed (Cache τ)}
    (hchange : Agree Cache.ShowsAs change change') :
    (c.changeCache change).1 = (c'.changeCache change').1 ∧
      (c.changeCache change).2.ShowsAs (c'.changeCache change').2 := by
  cases hchange with
  | ok hcache => exact ⟨rfl, h.withCache hcache⟩
  | error m => exact ⟨rfl, h⟩

theorem post (h : c.ShowsAs c') (event : Operator.Event) :
    (c.post event).1 = (c'.post event).1 ∧ (c.post event).2.ShowsAs (c'.post event).2 := by
  unfold Cluster.post
  rw [h.eventFault]
  cases c'.eventFault with
  | some fault => exact ⟨rfl, { h with eventFault := rfl }⟩
  | none => exact ⟨rfl, { h with eventFault := rfl }⟩

variable [Add τ]

/-- A call meets the same fault. -/
theorem meet (h : c.ShowsAs c') (call : Call) : ∃ d? later later',
    c.meet call = (d?, later) ∧ c'.meet call = (d?, later') ∧ later.ShowsAs later' := by
  have hmeet : c'.disturbances.meet call.verb call.name = c.disturbances.meet call.verb call.name :=
    by rw [h.disturbances]
  refine ⟨_, _, _, rfl, congrArg (·, _) (congrArg Prod.fst hmeet), ?_⟩
  exact { h with disturbances := congrArg Prod.snd hmeet.symm }

theorem read (h : c.ShowsAs c') (space name : Value) :
    (c.read space name).1 = (c'.read space name).1 ∧
      (c.read space name).2.ShowsAs (c'.read space name).2 := by
  obtain ⟨d?, later, later', hmeet, hmeet', hlater⟩ :=
    h.meet { verb := .read, space := space, name := name }
  unfold Cluster.read
  rw [hmeet, hmeet']
  cases d? with
  | some d => exact ⟨rfl, hlater⟩
  | none =>
    dsimp only
    cases Key.ofValues space name with
    | error m => exact ⟨rfl, hlater⟩
    | ok key => exact ⟨by rw [hlater.server], hlater⟩

omit [Add τ] in
theorem effect (h : c.ShowsAs c') (space name : Value)
    (change : Server → Key → Except Refusal WireSecret × Server) :
    (c.effect space name change).1 = (c'.effect space name change).1 ∧
      (c.effect space name change).2.ShowsAs (c'.effect space name change).2 := by
  unfold Cluster.effect
  cases Key.ofValues space name with
  | error m => exact ⟨rfl, h⟩
  | ok key =>
    dsimp only
    rw [h.server]
    exact ⟨rfl, { h with server := rfl }⟩

theorem write (h : c.ShowsAs c') (call : Call)
    (change : Server → Key → Except Refusal WireSecret × Server) :
    (c.write call change).1 = (c'.write call change).1 ∧
      (c.write call change).2.ShowsAs (c'.write call change).2 := by
  obtain ⟨d?, later, later', hmeet, hmeet', hlater⟩ := h.meet call
  obtain ⟨hresult, hdone⟩ := hlater.effect call.space call.name change
  unfold Cluster.write
  rw [hmeet, hmeet']
  cases d? with
  | none =>
    refine ⟨?_, hdone⟩
    dsimp only
    rw [hresult, hdone.answersWrites]
  | some d =>
    dsimp only
    split
    · exact ⟨by rw [hresult], hdone⟩
    · exact ⟨rfl, hlater⟩

end ShowsAs

end Cluster

/-! ## Programs that come to the same -/

namespace Operator

/-- Whether the exchange looks something up in the cache, and then whether it was found. -/
def hit? : Exchange (requests τ) (Fault τ) → Option Bool
  | ⟨.cacheGet _, .ok found⟩ => some found.isSome
  | _ => none

/-- The request is made aside: it changes nothing that is shown. -/
def Request.IsAside : Request τ → Prop
  | .now => True
  | .sleep _ => True
  | .lastCall => True
  | .recordCall _ => True
  | .measure _ => True
  | .log _ => True
  | _ => False

theorem Request.IsAside.not_isTraffic {q : Request τ} (h : q.IsAside) : q.IsTraffic = false := by
  cases q <;> first | rfl | exact h.elim

theorem Request.IsAside.hit?_eq_none {x : Exchange (requests τ) (Fault τ)}
    (h : x.request.IsAside) : hit? x = none := by
  unfold hit?
  split
  · exact h.elim
  · rfl

variable [Time τ] (timing : Resync.Timing τ)

/-- The look-ups in the cache that a run makes, and whether each finds something. -/
def hits (p : Task τ α) (c : Cluster τ) : List Bool :=
  (p.trace (Cluster.handle timing) c).filterMap hit?

/-- Runs that come to the same: the result, the traffic about secrets, and what is shown then. -/
structure ComesToSame (p p' : Task τ α) (c c' : Cluster τ) : Prop where
  result : (p.run (Cluster.handle timing) c).1 = (p'.run (Cluster.handle timing) c').1
  traffic : (p.trace (Cluster.handle timing) c).filterMap traffic =
    (p'.trace (Cluster.handle timing) c').filterMap traffic
  shown : (p.run (Cluster.handle timing) c).2.ShowsAs (p'.run (Cluster.handle timing) c').2

/-- From clusters that show the same, the programs come to the same as long as the same look-ups
find something in the cache.  The look-ups are compared as the beginnings of longer lists, so that
of the look-ups in a longer run the same ones remain. -/
def RunsAlike (p p' : Task τ α) : Prop :=
  ∀ ⦃c c' : Cluster τ⦄, c.ShowsAs c' → ∀ ⦃rest rest' : List Bool⦄,
    hits timing p c ++ rest = hits timing p' c' ++ rest' →
      rest = rest' ∧ ComesToSame timing p p' c c'

variable {timing} {p p' : Task τ α}

theorem RunsAlike.comesToSame {c c' : Cluster τ} (h : RunsAlike timing p p') (hc : c.ShowsAs c')
    (hhits : hits timing p c = hits timing p' c') : ComesToSame timing p p' c c' :=
  (h hc (congrArg (· ++ []) hhits)).2

/-! ### Along the operations on programs -/

theorem runsAlike_done (r : Except (Fault τ) α) : RunsAlike timing (.done r) (.done r) :=
  fun _ _ hc _ _ hrest => ⟨hrest, rfl, rfl, hc⟩

theorem runsAlike_outcome {f f' : Except (Fault τ) α → Task τ β} (hp : RunsAlike timing p p')
    (hf : ∀ r, RunsAlike timing (f r) (f' r)) :
    RunsAlike timing (p.outcome f) (p'.outcome f') := by
  intro c c' hc rest rest' hrest
  unfold hits at hrest
  rw [trace_outcome, trace_outcome, List.filterMap_append, List.filterMap_append,
    List.append_assoc, List.append_assoc] at hrest
  obtain ⟨hthen, hfirst⟩ := hp hc hrest
  rw [hfirst.result] at hthen
  obtain ⟨hlast, hsecond⟩ := hf _ hfirst.shown hthen
  refine ⟨hlast, ?_, ?_, ?_⟩
  · rw [run_outcome, run_outcome, hfirst.result]
    exact hsecond.result
  · rw [trace_outcome, trace_outcome, List.filterMap_append, List.filterMap_append,
      hfirst.traffic, hfirst.result, hsecond.traffic]
  · rw [run_outcome, run_outcome, hfirst.result]
    exact hsecond.shown

theorem runsAlike_bind {f f' : α → Task τ β} (hp : RunsAlike timing p p')
    (hf : ∀ a, RunsAlike timing (f a) (f' a)) : RunsAlike timing (p >>= f) (p' >>= f') := by
  refine runsAlike_outcome hp fun r => ?_
  cases r with
  | ok a => exact hf a
  | error fault => exact runsAlike_done _

theorem runsAlike_recover {handler : Fault τ → Task τ α} (hp : RunsAlike timing p p')
    (hhandler : ∀ fault, RunsAlike timing (handler fault) (handler fault)) :
    RunsAlike timing (p.recover handler) (p'.recover handler) := by
  refine runsAlike_outcome hp fun r => ?_
  cases r with
  | ok a => exact runsAlike_done _
  | error fault => exact hhandler fault

theorem runsAlike_always {cleanup cleanup' : Task τ Unit} (hp : RunsAlike timing p p')
    (hcleanup : RunsAlike timing cleanup cleanup') :
    RunsAlike timing (p.always cleanup) (p'.always cleanup') :=
  runsAlike_outcome hp fun _ => runsAlike_bind hcleanup fun _ => runsAlike_done _

theorem runsAlike_interpret {σ : Signature} {f : (q : σ.Request) → Task τ (σ.Answer q)}
    (hf : ∀ q, RunsAlike timing (f q) (f q)) (p : Program σ (Fault τ) α) :
    RunsAlike timing (p.interpret f) (p.interpret f) := by
  induction p with
  | done r => exact runsAlike_done r
  | ask q next ih => exact runsAlike_outcome (hf q) ih

/-! ### Requests -/

/-- What is done aside leaves what is shown as it is. -/
theorem showsAs_of_aside (hp : p.AsksOnly Request.IsAside) (c : Cluster τ) :
    c.ShowsAs (p.run (Cluster.handle timing) c).2 := by
  refine hp.relates Cluster.ShowsAs.refl Cluster.ShowsAs.trans (fun q c hq => ?_) c
  cases q <;> first | exact ⟨fun _ => rfl, rfl, rfl, rfl, rfl⟩ | exact hq.elim

/-- What is done aside need not be the same, if it comes to the same result. -/
theorem runsAlike_of_aside (hp : p.AsksOnly Request.IsAside) (hp' : p'.AsksOnly Request.IsAside)
    (hresult : ∀ c c', (p.run (Cluster.handle timing) c).1 =
      (p'.run (Cluster.handle timing) c').1) : RunsAlike timing p p' := by
  have hhits : ∀ {p : Task τ α}, p.AsksOnly Request.IsAside → ∀ c, hits timing p c = [] :=
    fun hp c => List.filterMap_eq_nil_iff.2 fun x hx =>
      Request.IsAside.hit?_eq_none (hp.of_mem_trace hx)
  have htraffic : ∀ {p : Task τ α}, p.AsksOnly Request.IsAside → ∀ c,
      (p.trace (Cluster.handle timing) c).filterMap traffic = [] :=
    fun hp c => List.filterMap_eq_nil_iff.2 fun x hx =>
      traffic_eq_none (Request.IsAside.not_isTraffic (hp.of_mem_trace hx))
  intro c c' hc rest rest' hrest
  rw [hhits hp, hhits hp', List.nil_append, List.nil_append] at hrest
  refine ⟨hrest, hresult c c', ?_, ?_⟩
  · rw [htraffic hp, htraffic hp']
  · exact ((showsAs_of_aside hp c).symm.trans hc).trans (showsAs_of_aside hp' c')

/-- What follows a reading of the clock may use it only for what is done aside. -/
theorem runsAlike_now_bind {f f' : τ → Task τ β}
    (hf : ∀ time time', RunsAlike timing (f time) (f' time')) :
    RunsAlike timing (now >>= f) (now >>= f') := fun c c' hc rest rest' hrest => by
  obtain ⟨hlast, hsame⟩ := hf c.clock c'.clock hc hrest
  exact ⟨hlast, hsame.result, hsame.traffic, hsame.shown⟩

/-- A request that is answered the same where the same shows. -/
theorem runsAlike_ask {q : Request τ} (hq : ∀ a, hit? ⟨q, a⟩ = none)
    (hanswer : ∀ c c' : Cluster τ, c.ShowsAs c' →
      (Cluster.handle timing q c).1 = (Cluster.handle timing q c').1 ∧
        (Cluster.handle timing q c).2.ShowsAs (Cluster.handle timing q c').2) :
    RunsAlike timing (Operator.ask q) (Operator.ask q) := by
  intro c c' hc rest rest' hrest
  obtain ⟨hsame, hshown⟩ := hanswer c c' hc
  have htrace : ∀ c : Cluster τ, (Operator.ask q).trace (Cluster.handle timing) c =
      [⟨q, (Cluster.handle timing q c).1⟩] := fun _ => rfl
  simp only [hits, htrace, List.filterMap_cons, hq, List.filterMap_nil, List.nil_append] at hrest
  refine ⟨hrest, hsame, ?_, hshown⟩
  rw [htrace, htrace, hsame]

/-- A look-up in the cache gives the same if it finds something in both or in neither. -/
theorem runsAlike_cacheGet (key : Key) :
    RunsAlike timing (Operator.ask (.cacheGet key)) (Operator.ask (.cacheGet key)) := by
  intro c c' hc rest rest' hrest
  obtain ⟨hhit, hlast⟩ : (c.cache.get key c.clock).1.isSome = (c'.cache.get key c'.clock).1.isSome ∧
      rest = rest' := List.cons.inj hrest
  obtain ⟨hfound, hcache⟩ := hc.cache.get hhit
  refine ⟨hlast, congrArg Except.ok hfound, ?_, hc.withCache hcache⟩
  show [(⟨.cacheGet key, .ok (c.cache.get key c.clock).1⟩ : Exchange (requests τ) (Fault τ))] = _
  rw [hfound]
  rfl

theorem runsAlike_cachePut (s : Secret) :
    RunsAlike timing (Operator.ask (.cachePut s)) (Operator.ask (.cachePut s)) :=
  runsAlike_ask (fun _ => rfl) fun _ _ hc => hc.changeCache (hc.cache.putOwn s _ _)

theorem runsAlike_cacheForget (space name : Value) :
    RunsAlike timing (Operator.ask (.cacheForget space name))
      (Operator.ask (.cacheForget space name)) :=
  runsAlike_ask (fun _ => rfl) fun _ _ hc => hc.changeCache (hc.cache.forgetValues space name)

theorem runsAlike_count (s : Series) : RunsAlike timing (count s) (count s) :=
  runsAlike_of_aside (behaves_request fun _ _ => trivial) (behaves_request fun _ _ => trivial)
    fun _ _ => rfl

theorem runsAlike_measureSince (start start' : τ) (s : Series) :
    RunsAlike timing (measureSince start s) (measureSince start' s) := by
  have haside : ∀ start : τ, (measureSince start s).AsksOnly Request.IsAside := fun start =>
    behaves_bind (behaves_request fun _ _ => trivial) fun _ _ _ =>
      behaves_request fun _ _ => trivial
  exact runsAlike_of_aside (haside start) (haside start') fun _ _ => rfl

theorem runsAlike_checked (r : Except Malformed α) : RunsAlike timing (checked r) (checked r) :=
  runsAlike_done _

/-! ## The collaborators of a synchronisation -/

variable (timing) in
/-- Taking a turn fails only on account of the rate. -/
theorem run_takeTurn (rate : τ) (c : Cluster τ) :
    ((takeTurn rate).run (Cluster.handle timing) c).1 =
      (RateLimit.spacing rate).map fun _ => () := by
  unfold takeTurn
  cases RateLimit.spacing rate with
  | error fault => rfl
  | ok spacing =>
    simp only [Program.ofExcept, now, Operator.ask, request, bind_eq_outcome, outcome_done,
      outcome_ask, resume_ok, run_ask, Cluster.handle]
    cases RateLimit.wait? spacing c.clock c.lastCall <;> rfl

theorem isAside_takeTurn (rate : τ) : (takeTurn rate).AsksOnly Request.IsAside := by
  refine (takesTurn_takeTurn rate).imp fun q hq => ?_
  cases q <;> first | exact trivial | exact hq

theorem runsAlike_spaced (rate : τ) {call : Task τ α} (hcall : RunsAlike timing call call) :
    RunsAlike timing (spaced rate call) (spaced rate call) := by
  rw [spaced]
  refine runsAlike_bind (runsAlike_of_aside (isAside_takeTurn rate) (isAside_takeTurn rate)
    fun c c' => ?_) fun _ => hcall
  rw [run_takeTurn, run_takeTurn]

theorem runsAlike_readFailure (fault : Fault τ) :
    RunsAlike timing (readFailure fault) (readFailure fault) := by
  unfold readFailure
  split
  · split
    · exact runsAlike_bind (runsAlike_count _) fun _ => runsAlike_done _
    · exact runsAlike_bind (runsAlike_count _) fun _ => runsAlike_done _
  · exact runsAlike_done _

theorem runsAlike_readThrough (rate : τ) (space name : Value) :
    RunsAlike timing (readThrough rate space name) (readThrough rate space name) := by
  refine runsAlike_now_bind fun start start' => ?_
  refine runsAlike_always (runsAlike_recover ?_ runsAlike_readFailure)
    (runsAlike_measureSince _ _ _)
  exact runsAlike_bind (runsAlike_spaced rate (runsAlike_ask (fun _ => rfl) fun _ _ hc =>
    hc.read space name)) fun _ => runsAlike_done _

theorem runsAlike_takeIn (raw : WireSecret) : RunsAlike timing (takeIn raw) (takeIn raw) :=
  runsAlike_bind (runsAlike_count _) fun _ => runsAlike_bind (runsAlike_checked _) fun s =>
    runsAlike_bind (runsAlike_cachePut s) fun _ => runsAlike_done _

theorem runsAlike_lookUp (rate : τ) (space name : Value) :
    RunsAlike timing (lookUp rate space name) (lookUp rate space name) := by
  refine runsAlike_bind (runsAlike_checked _) fun key => ?_
  refine runsAlike_bind (runsAlike_cacheGet key) fun cached => ?_
  cases cached with
  | some s => exact runsAlike_bind (runsAlike_count _) fun _ => runsAlike_done _
  | none =>
    refine runsAlike_bind (runsAlike_readThrough rate space name) fun found => ?_
    cases found with
    | none => exact runsAlike_done _
    | some raw => exact runsAlike_takeIn raw

theorem runsAlike_write (rate : τ) (operation : Operation) (secret : Secret)
    {call : Task τ (Option WireSecret)} (hcall : RunsAlike timing call call) :
    RunsAlike timing (write rate operation secret call) (write rate operation secret call) := by
  have hfailure : ∀ fault, RunsAlike timing (writeFailure operation secret fault)
      (writeFailure operation secret fault) := fun fault =>
    runsAlike_bind (runsAlike_count _) fun _ => runsAlike_bind (runsAlike_count _) fun _ =>
      runsAlike_bind (runsAlike_cacheForget _ _) fun _ => runsAlike_done _
  have hcaches : ∀ stored : Secret, RunsAlike timing (do
      Operator.ask (.cachePut stored)
      return stored) (do
      Operator.ask (.cachePut stored)
      return stored) := fun stored =>
    runsAlike_bind (runsAlike_cachePut stored) fun _ => runsAlike_done _
  refine runsAlike_now_bind fun start start' => ?_
  refine runsAlike_bind (runsAlike_always (runsAlike_recover (runsAlike_spaced rate hcall) hfailure)
    (runsAlike_measureSince _ _ _)) fun raw => ?_
  refine runsAlike_bind (runsAlike_count _) fun _ => runsAlike_bind (runsAlike_count _) fun _ => ?_
  cases raw with
  | none => exact hcaches secret
  | some w => exact runsAlike_bind (runsAlike_checked _) hcaches

theorem runsAlike_collaborate (rate : τ) (target : Value) (q : Sync.collaborators.Request) :
    RunsAlike timing (collaborate rate target q) (collaborate rate target q) := by
  cases q with
  | lookUp space name => exact runsAlike_lookUp rate space name
  | create secret =>
    refine runsAlike_bind (runsAlike_checked _) fun body => runsAlike_write rate _ _ ?_
    exact runsAlike_ask (fun _ => rfl) fun _ _ hc => hc.write _ _
  | update secret =>
    refine runsAlike_write rate _ _ (runsAlike_bind (runsAlike_checked _) fun body => ?_)
    exact runsAlike_ask (fun _ => rfl) fun _ _ hc => hc.write _ _
  | emit reason message => exact runsAlike_ask (fun _ => rfl) fun _ _ hc => hc.post _

/-- A synchronisation comes to the same wherever the same shows and the same look-ups find something
in the cache. -/
theorem runsAlike_sync (rate : τ) (places : Sync.Places) :
    RunsAlike timing (sync rate places) (sync rate places) :=
  runsAlike_interpret (runsAlike_collaborate rate places.targetReference) _

end Operator

end SecretMirror
