import SecretMirror.Proofs.Attempts
import SecretMirror.Proofs.CacheView
import SecretMirror.Proofs.SecretTraffic
import SecretMirror.Proofs.Leading

/-!
# Around the cache

A `TimedCache` is a cache and the clock by which it goes.  The cache does what it is for and the
bookkeeping does not fail.  Anything else may come of the rest (`TimedCache.Answers`): the clock may
show whatever it likes, and a call of the API may be answered by any object and fail by any fault.
While a call waits for its turn it may fail too, but not in the way the API does.  A
`TimedCache.Handler` is any surroundings that answer the requests of the operator and have such a
cache about them.

Here the parts of look-ups and writes are followed from one state of the cache to another.  What
deals with no secrets leaves the cache as it is and calls nothing (`TimedCache.KeepsCache`), so a
call of the API comes to one exchange with it, or to none if there was no turn to be had
(`Attempts`, `leads_spaced`).  An operation on the cache says what its key holds afterwards, and
that all other keys hold what they held (`TimedCache.Leaves`).
-/

namespace SecretMirror

open Operator
open Program hiding bind ask

namespace Operator

variable {τ α : Type}

instance : (q : Request τ) → Decidable q.IsCall
  | .read .. => inferInstanceAs (Decidable True)
  | .create .. => inferInstanceAs (Decidable True)
  | .replace .. => inferInstanceAs (Decidable True)
  | .now | .sleep _ | .lastCall | .recordCall _ | .cacheGet _ | .cachePut _ | .cacheForget ..
  | .clusterConfig | .fileConfig | .measure _ | .log _ | .post _ | .schedule _ =>
    inferInstanceAs (Decidable False)

/-- The calls of the API among some exchanges, with what they came to. -/
def callsIn (xs : List (Exchange (requests τ) (Fault τ))) :
    List (Exchange (requests τ) (Fault τ)) :=
  xs.filter fun x => x.request.IsCall

@[simp] theorem callsIn_append (xs ys : List (Exchange (requests τ) (Fault τ))) :
    callsIn (xs ++ ys) = callsIn xs ++ callsIn ys :=
  List.filter_append ..

/-- There was no turn to be had for a call: the rate is zero, by which `rate_limit_k8s` divides, or
it failed to wait for its turn. -/
def LacksTurn [Time τ] (rate : τ) (xs : List (Exchange (requests τ) (Fault τ)))
    (fault : Fault τ) : Prop :=
  Time.isZero rate = true ∧ fault = .rateIsZero ∨
    ∃ q : Request τ, q.TakesTurn ∧ (⟨q, .error fault⟩ : Exchange _ _) ∈ xs

/-- A call of the API is asked for, and comes to what it is answered with.  It is made once, or not
at all if there is no turn for it. -/
inductive Attempts [Time τ] (rate : τ) (call : Except (Fault τ) α → Exchange (requests τ) (Fault τ))
    (xs : List (Exchange (requests τ) (Fault τ))) : Except (Fault τ) α → Prop where
  | limited {fault : Fault τ} (hcalls : callsIn xs = []) (hlacks : LacksTurn rate xs fault)
    (hplain : fault.isApi = false) : Attempts rate call xs (.error fault)
  | called {a : Except (Fault τ) α} (hcalls : callsIn xs = [call a]) : Attempts rate call xs a

section

variable [Time τ] {rate : τ} {call : Except (Fault τ) α → Exchange (requests τ) (Fault τ)}
  {xs ys : List (Exchange (requests τ) (Fault τ))} {a : Except (Fault τ) α}

theorem LacksTurn.mono {fault : Fault τ} (h : LacksTurn rate xs fault) (hsub : xs ⊆ ys) :
    LacksTurn rate ys fault :=
  h.imp_right fun ⟨q, hq, hmem⟩ => ⟨q, hq, hsub hmem⟩

theorem Attempts.mem_of_ok {v : α} (h : Attempts rate call xs (.ok v)) : call (.ok v) ∈ xs := by
  cases h with
  | called hcalls =>
    have hmem : call (.ok v) ∈ callsIn xs := by
      rw [hcalls]
      exact List.mem_singleton_self _
    exact List.mem_of_mem_filter hmem

theorem Attempts.length_callsIn_le (h : Attempts rate call xs a) : (callsIn xs).length ≤ 1 := by
  cases h with
  | limited hcalls => simp [hcalls]
  | called hcalls => simp [hcalls]

theorem Attempts.eq_of_mem_callsIn (h : Attempts rate call xs a)
    {x : Exchange (requests τ) (Fault τ)} (hx : x ∈ callsIn xs) : x = call a := by
  cases h with
  | limited hcalls =>
    rw [hcalls] at hx
    cases hx
  | called hcalls =>
    rw [hcalls] at hx
    exact List.mem_singleton.1 hx

theorem Attempts.of_subset (h : Attempts rate call xs a) (hcalls : callsIn ys = callsIn xs)
    (hsub : xs ⊆ ys) : Attempts rate call ys a := by
  cases h with
  | limited hnone hlacks hplain => exact .limited (hcalls.trans hnone) (hlacks.mono hsub) hplain
  | called hone => exact .called (hcalls.trans hone)

theorem Attempts.append (h : Attempts rate call xs a) (hys : callsIn ys = []) :
    Attempts rate call (xs ++ ys) a :=
  h.of_subset (by rw [callsIn_append, hys, List.append_nil]) (List.subset_append_left xs ys)

theorem Attempts.prepend (h : Attempts rate call xs a) (hys : callsIn ys = []) :
    Attempts rate call (ys ++ xs) a :=
  h.of_subset (by rw [callsIn_append, hys, List.nil_append]) (List.subset_append_right ys xs)

end

end Operator

structure TimedCache (τ : Type) where
  clock : τ
  cache : Cache τ

namespace TimedCache

variable {τ α S : Type}

/-- An operation on the cache has the given outcome. -/
def Caches (s : TimedCache τ) (r : Except Malformed (Cache τ)) (a : Except (Fault τ) Unit)
    (t : TimedCache τ) : Prop :=
  match r with
  | .ok cache => a = .ok () ∧ t = { s with cache := cache }
  | .error m => a = .error (.malformed m) ∧ t = s

/-- Nothing fails that is never refused, and only calls of the API fail in the way the API does. -/
structure IsOrdinary (x : Exchange (requests τ) (Fault τ)) : Prop where
  reliable : IsReliable x
  plain : x.request.TakesTurn → ∀ fault, x.answer = .error fault → fault.isApi = false

/-- How a request may be answered. -/
def Answers [Time τ] : (q : Request τ) → TimedCache τ → Except (Fault τ) ((requests τ).Answer q) →
    TimedCache τ → Prop
  | .cacheGet key, s, a, t =>
    a = .ok (s.cache.get key s.clock).1 ∧ t = { s with cache := (s.cache.get key s.clock).2 }
  | .cachePut secret, s, a, t => s.Caches (s.cache.putOwn secret s.clock) a t
  | .cacheForget space name, s, a, t => s.Caches (s.cache.forgetValues space name) a t
  | q, s, a, t => IsOrdinary ⟨q, a⟩ ∧ t.cache = s.cache

/-- A cache with its clock as what the parts of a program share.  Nothing goes on beside them. -/
def medium [Time τ] : Interleaving.Medium (requests τ) (Fault τ) (TimedCache τ) where
  answers := Answers
  interferes s t := t.cache = s.cache
  starts _ _ := False

/-- Surroundings that answer the requests of the operator, with a cache and a clock about them. -/
structure Handler (τ S : Type) [Time τ] where
  handle : (q : (requests τ).Request) → S → Except (Fault τ) ((requests τ).Answer q) × S
  timedCache : S → TimedCache τ
  answers : ∀ q s, Answers q (timedCache s) (handle q s).1 (timedCache (handle q s).2)

/-- The key holds the entry, or nothing, and all other keys hold what they held. -/
def Leaves (s : TimedCache τ) (key : Key) (e? : Option (Entry τ)) (t : TimedCache τ) : Prop :=
  ∀ other, t.cache.find? other = if other = key then e? else s.cache.find? other

/-- The cache is as it was, and the API was not called. -/
structure KeepsCache (s : TimedCache τ) (xs : List (Exchange (requests τ) (Fault τ)))
    (t : TimedCache τ) :
    Prop where
  calls : callsIn xs = []
  cache : t.cache = s.cache

variable {s t u : TimedCache τ} {key : Key} {e? e?' : Option (Entry τ)}
  {xs ys : List (Exchange (requests τ) (Fault τ))}

theorem Leaves.find? (h : s.Leaves key e? t) : t.cache.find? key = e? :=
  (h key).trans (if_pos rfl)

theorem Leaves.find?_of_ne (h : s.Leaves key e? t) {other : Key} (hne : other ≠ key) :
    t.cache.find? other = s.cache.find? other :=
  (h other).trans (if_neg hne)

theorem Leaves.of_cache (hcache : t.cache = s.cache) (hkey : s.cache.find? key = e?) :
    s.Leaves key e? t := by
  intro other
  rw [hcache]
  split
  · next heq => rw [heq, hkey]
  · rfl

theorem Leaves.congr_start (h : t.Leaves key e? u) (hcache : t.cache = s.cache) :
    s.Leaves key e? u := by
  intro other
  rw [h other, hcache]

theorem Leaves.congr_end (h : s.Leaves key e? t) (hcache : u.cache = t.cache) :
    s.Leaves key e? u := by
  intro other
  rw [hcache, h other]

theorem Leaves.trans (h : s.Leaves key e? t) (h' : t.Leaves key e?' u) : s.Leaves key e?' u := by
  intro other
  rw [h' other]
  split
  · rfl
  · next hne => exact h.find?_of_ne hne

theorem KeepsCache.trans (h : s.KeepsCache xs t) (h' : t.KeepsCache ys u) : s.KeepsCache (xs ++ ys)
    u :=
  ⟨by rw [callsIn_append, h.calls, h'.calls]; rfl, h'.cache.trans h.cache⟩

theorem KeepsCache.callsIn_append (h : s.KeepsCache xs t)
    (ys : List (Exchange (requests τ) (Fault τ))) :
    callsIn (xs ++ ys) = callsIn ys := by
  rw [Operator.callsIn_append, h.calls]
  rfl

theorem not_isCall_of_not_isTraffic {q : Request τ} (h : q.IsTraffic = false) : ¬ q.IsCall := by
  cases q <;> first | exact id | cases h

variable [Time τ]

/-- What is shown of all ways a program may be led around a cache holds in any surroundings. -/
theorem Handler.leads (W : Handler τ S) {p : Task τ α} {s : S}
    {Q : List (Exchange (requests τ) (Fault τ)) → Except (Fault τ) α → TimedCache τ → Prop}
    (h : p.Leads medium (W.timedCache s) Q) :
    Q (p.trace W.handle s) (p.run W.handle s).1 (W.timedCache (p.run W.handle s).2) :=
  h.of_handle W.answers

/-! ## What deals with no secrets -/

theorem Answers.of_not_isTraffic {q : Request τ} {a : Except (Fault τ) ((requests τ).Answer q)}
    (hq : q.IsTraffic = false) (h : Answers q s a t) : IsOrdinary ⟨q, a⟩ ∧ t.cache = s.cache := by
  cases q <;> first | exact h | cases hq

theorem keepsCache_of_not_isTraffic (hxs : ∀ x ∈ xs, x.request.IsTraffic = false)
    (h : medium.Grants s xs t) : s.KeepsCache xs t ∧ ∀ x ∈ xs, IsOrdinary x := by
  induction h with
  | none s => exact ⟨⟨rfl, rfl⟩, fun _ hx => absurd hx List.not_mem_nil⟩
  | @next s t u x xs hx _ ih =>
    obtain ⟨hhead, hrest⟩ := List.forall_mem_cons.1 hxs
    obtain ⟨hkeeps, hordinary⟩ := ih hrest
    obtain ⟨hfirst, hcache⟩ := Answers.of_not_isTraffic hhead hx
    have hcall : callsIn [x] = [] := by simp [callsIn, not_isCall_of_not_isTraffic hhead]
    exact ⟨KeepsCache.trans ⟨hcall, hcache⟩ hkeeps, List.forall_mem_cons.2 ⟨hfirst, hordinary⟩⟩

theorem leads_noTraffic {p : Task τ α} (hp : NoTraffic p) :
    p.Leads medium s fun xs _ t => s.KeepsCache xs t ∧ ∀ x ∈ xs, IsOrdinary x :=
  hp.leads.imp fun _ _ _ h => keepsCache_of_not_isTraffic h.1 h.2

theorem leads_measure (update : Metrics.Update τ) :
    (ask (.measure update)).Leads medium s fun xs r t => s.KeepsCache xs t ∧ r = .ok () := by
  refine leads_request fun a t h => ?_
  obtain ⟨hordinary, hcache⟩ := h
  refine ⟨⟨rfl, hcache⟩, ?_⟩
  cases a with
  | ok _ => rfl
  | error fault => exact hordinary.reliable.elim

theorem leads_now : (now (τ := τ)).Leads medium s fun xs r t =>
    s.KeepsCache xs t ∧ ∃ time, r = .ok time := by
  refine leads_request fun a t h => ?_
  obtain ⟨hordinary, hcache⟩ := h
  refine ⟨⟨rfl, hcache⟩, ?_⟩
  cases a with
  | ok time => exact ⟨time, rfl⟩
  | error fault => exact hordinary.reliable.elim

theorem leads_now_bind {f : τ → Task τ α}
    {Q : List (Exchange (requests τ) (Fault τ)) → Except (Fault τ) α → TimedCache τ → Prop}
    (hf : ∀ xs time t, s.KeepsCache xs t → (f time).Leads medium t fun ys r u => Q (xs ++ ys) r u) :
    (now >>= f).Leads medium s Q := by
  refine leads_bind leads_now ?_ ?_
  · rintro xs time t ⟨hkeeps, -⟩
    exact hf xs time t hkeeps
  · rintro xs fault t ⟨-, time, ⟨⟩⟩

theorem leads_count_bind {series : Series} {f : Unit → Task τ α}
    {Q : List (Exchange (requests τ) (Fault τ)) → Except (Fault τ) α → TimedCache τ → Prop}
    (hf : ∀ xs t, s.KeepsCache xs t → (f ()).Leads medium t fun ys r u => Q (xs ++ ys) r u) :
    (count series >>= f).Leads medium s Q := by
  refine leads_bind (leads_measure _) ?_ ?_
  · rintro xs _ t ⟨hkeeps, -⟩
    exact hf xs t hkeeps
  · rintro xs fault t ⟨-, ⟨⟩⟩

theorem leads_measureSince (start : τ) (series : Series) :
    (measureSince start series).Leads medium s fun xs r t => s.KeepsCache xs t ∧ r = .ok () :=
  leads_now_bind fun _ _ _ hkeeps =>
    (leads_measure _).imp fun _ _ _ h => ⟨hkeeps.trans h.1, h.2⟩

omit [Time τ] in
theorem leads_checked_bind {β : Type}
    {m : Interleaving.Medium (requests τ) (Fault τ) (TimedCache τ)}
    {a : Except Malformed α} {f : α → Task τ β}
    {Q : List (Exchange (requests τ) (Fault τ)) → Except (Fault τ) β → TimedCache τ → Prop}
    (hok : ∀ b, a = .ok b → (f b).Leads m s Q)
    (herror : ∀ reason, a = .error reason → Q [] (.error (.malformed reason)) s) :
    (checked a >>= f).Leads m s Q := by
  cases a with
  | ok b => exact hok b rfl
  | error reason => exact leads_done (herror reason rfl)

/-! ## Calls of the API -/

omit [Time τ] in
theorem failsBy_ask {q : Request τ} (hq : q.TakesTurn) : (ask q).FailsBy Request.TakesTurn :=
  failsBy_request hq

theorem lacksTurn_of_completes {rate : τ} {fault : Fault τ}
    (h : (takeTurn rate).Completes xs (.error fault)) : LacksTurn rate xs fault := by
  have hbegins : (do
      let start ← now
      ask (.recordCall start) : Task τ Unit).FailsBy Request.TakesTurn :=
    FailsBy.bind (failsBy_ask trivial) fun start => failsBy_ask trivial
  rcases completes_bind_iff.1 h with ⟨_, hspacing, ⟨⟩⟩ | ⟨ys, spacing, zs, -, hrest, rfl⟩
  · left
    obtain ⟨-, hspacing⟩ := completes_done_iff.1 hspacing
    unfold RateLimit.spacing at hspacing
    split at hspacing
    · next hzero =>
      cases hspacing
      exact ⟨hzero, rfl⟩
    · cases hspacing
  · right
    obtain ⟨q, hq, hmem⟩ : ∃ q : Request τ, q.TakesTurn ∧ ⟨q, .error fault⟩ ∈ zs := by
      refine (?_ : FailsBy Request.TakesTurn _) zs fault hrest
      refine FailsBy.bind (failsBy_ask trivial) fun time =>
        FailsBy.bind (failsBy_ask trivial) fun last => ?_
      dsimp only
      split
      · exact FailsBy.bind (failsBy_ask trivial) fun _ => hbegins
      · exact hbegins
    exact ⟨q, hq, List.mem_append_right ys hmem⟩

theorem leads_takeTurn (rate : τ) : (takeTurn rate).Leads medium s fun xs r t =>
    s.KeepsCache xs t ∧
      ∀ fault, r = .error fault → LacksTurn rate xs fault ∧ fault.isApi = false := by
  intro xs r t h hgrants
  obtain ⟨hkeeps, hordinary⟩ := leads_noTraffic (noTraffic_takeTurn rate) xs r t h hgrants
  refine ⟨hkeeps, ?_⟩
  rintro fault rfl
  have hlacks := lacksTurn_of_completes h
  refine ⟨hlacks, ?_⟩
  rcases hlacks with ⟨-, rfl⟩ | ⟨q, hq, hmem⟩
  · rfl
  · exact (hordinary _ hmem).plain hq fault rfl

/-- A call that has to wait its turn is one attempt, and the cache is as it was. -/
theorem leads_spaced (rate : τ) {program : Task τ α}
    {call : Except (Fault τ) α → Exchange (requests τ) (Fault τ)}
    (hprogram : ∀ s, program.Leads medium s fun xs a t =>
      callsIn xs = [call a] ∧ t.cache = s.cache) :
    (spaced rate program).Leads medium s fun xs a t =>
      Attempts rate call xs a ∧ t.cache = s.cache := by
  rw [spaced]
  refine leads_bind (leads_takeTurn rate) ?_ ?_
  · rintro xs _ t ⟨hkeeps, -⟩
    refine (hprogram t).imp ?_
    rintro ys a u ⟨hcalls, hcache⟩
    exact ⟨.called ((hkeeps.callsIn_append ys).trans hcalls), hcache.trans hkeeps.cache⟩
  · rintro xs fault t ⟨hkeeps, hlacks⟩
    obtain ⟨hlacks, hplain⟩ := hlacks fault rfl
    exact ⟨.limited hkeeps.calls hlacks hplain, hkeeps.cache⟩

/-! ## Operations on the cache -/

/-- What has a key is cached as of now. -/
theorem leads_cachePut {secret : Secret} (hkey : secret.key = .ok key) :
    (ask (.cachePut secret)).Leads medium s fun xs r t => callsIn xs = [] ∧ r = .ok () ∧
      s.Leaves key (some ⟨secret, t.clock⟩) t := by
  refine leads_request fun a t h => ?_
  have hput : s.cache.putOwn secret s.clock = .ok (s.cache.put key secret s.clock) :=
    Cache.putOwn_eq_ok_iff.2 ⟨key, hkey, rfl⟩
  have hcaches : s.Caches (s.cache.putOwn secret s.clock) a t := h
  rw [hput] at hcaches
  obtain ⟨rfl, rfl⟩ := hcaches
  exact ⟨rfl, rfl, fun other => Cache.find?_put ..⟩

theorem leads_cacheForget {space name : Value} (hkey : Key.ofValues space name = .ok key) :
    (ask (.cacheForget space name)).Leads medium s fun xs r t => callsIn xs = [] ∧ r = .ok () ∧
      s.Leaves key none t := by
  refine leads_request fun a t h => ?_
  have hcaches : s.Caches (s.cache.forgetValues space name) a t := h
  cases hforget : s.cache.forgetValues space name with
  | error reason => exact absurd hkey (Cache.ofValues_ne_of_forgetValues hforget key)
  | ok cache =>
    rw [hforget] at hcaches
    obtain ⟨rfl, rfl⟩ := hcaches
    refine ⟨rfl, rfl, fun other => ?_⟩
    rw [Cache.find?_forgetValues hforget, hkey]
    simp [eq_comm]

/-! ## Steady surroundings -/

/-- Surroundings whose API answers all reads alike, and all writes.  Time passes only by
sleeping. -/
def Handler.steady (reads : Except (Fault τ) WireSecret)
    (writes : Except (Fault τ) (Option WireSecret)) : Handler τ (TimedCache τ) where
  handle
    | .now, s => (.ok s.clock, s)
    | .sleep time, s => (.ok (), { s with clock := s.clock + time })
    | .lastCall, s => (.ok 0, s)
    | .recordCall _, s => (.ok (), s)
    | .cacheGet key, s =>
      (.ok (s.cache.get key s.clock).1, { s with cache := (s.cache.get key s.clock).2 })
    | .cachePut secret, s =>
      match s.cache.putOwn secret s.clock with
      | .ok cache => (.ok (), { s with cache := cache })
      | .error reason => (.error (.malformed reason), s)
    | .cacheForget space name, s =>
      match s.cache.forgetValues space name with
      | .ok cache => (.ok (), { s with cache := cache })
      | .error reason => (.error (.malformed reason), s)
    | .read .., s => (reads, s)
    | .create .., s => (writes, s)
    | .replace .., s => (writes, s)
    | .clusterConfig, s => (.ok (), s)
    | .fileConfig, s => (.ok (), s)
    | .measure _, s => (.ok (), s)
    | .log _, s => (.ok (), s)
    | .post _, s => (.ok (), s)
    | .schedule step, s => (.ok (step.perform ⟨0, 0⟩ { lastRun := 0 }).1, s)
  timedCache s := s
  answers q s := by
    cases q with
    | cacheGet key => exact ⟨rfl, rfl⟩
    | cachePut secret =>
      dsimp only [Answers, Caches]
      cases s.cache.putOwn secret s.clock with
      | ok cache => exact ⟨rfl, rfl⟩
      | error reason => exact ⟨rfl, rfl⟩
    | cacheForget space name =>
      dsimp only [Answers, Caches]
      cases s.cache.forgetValues space name with
      | ok cache => exact ⟨rfl, rfl⟩
      | error reason => exact ⟨rfl, rfl⟩
    | read space name => exact ⟨⟨trivial, fun hturn => hturn.elim⟩, rfl⟩
    | create space body => exact ⟨⟨trivial, fun hturn => hturn.elim⟩, rfl⟩
    | replace space name body => exact ⟨⟨trivial, fun hturn => hturn.elim⟩, rfl⟩
    | _ => exact ⟨⟨trivial, nofun⟩, rfl⟩

end TimedCache

end SecretMirror
