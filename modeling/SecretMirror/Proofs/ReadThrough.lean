import SecretMirror.Proofs.TimedCache

/-!
# Looking up through the cache

A look-up hands out what is cached under the key, if it is not too old, and then it does nothing
else.  Otherwise it asks the API, if it gets its turn, and the answer decides what stays under the
key: the secret that was found, as of now, or nothing (`TimedCache.ReadsThrough`).  Of the API it is
assumed that a read is answered with what was asked for.

Two things follow for look-ups one after another (`TimedCache.Handler.Gets`).  That there is no
secret is never remembered: each time it is said, the API has just been asked.  What is handed out
was put into the cache at the time that its entry shows (`TimedCache.IsLastPut`), for a look-up that
hands out an entry does not renew it.  So nothing is handed out for longer than it may be.
-/

namespace SecretMirror

open Operator
open Program hiding bind ask

namespace TimedCache

variable {τ S : Type} [Time τ]

/-! ## One look-up -/

/-- An entry under a key that is not too old, so that it is handed out. -/
structure Serves (s : TimedCache τ) (key : Key) (e : Entry τ) : Prop where
  stored : s.cache.find? key = some e
  fresh : s.cache.isExpired e s.clock = false

/-- What a look-up makes of the answer to its read, and what is cached under the key then.  Only a
secret that can be read is cached; after any other answer the key is empty. -/
inductive Brings (key : Key) (s t : TimedCache τ) :
    Except (Fault τ) WireSecret → Except (Fault τ) (Option Secret) → Prop where
  | found {w : WireSecret} {secret : Secret} (hread : Secret.ofWire w = .ok secret)
    (hleaves : s.Leaves key (some ⟨secret, t.clock⟩) t) : Brings key s t (.ok w) (.ok (some secret))
  | malformed {w : WireSecret} {reason : Malformed} (hread : Secret.ofWire w = .error reason)
    (hleaves : s.Leaves key none t) : Brings key s t (.ok w) (.error (.malformed reason))
  | absent {fault : Fault τ} (habsent : saysAbsent fault = true)
    (hleaves : s.Leaves key none t) : Brings key s t (.error fault) (.ok none)
  | failed {fault : Fault τ} (hpresent : saysAbsent fault = false)
    (hleaves : s.Leaves key none t) : Brings key s t (.error fault) (.error fault)

/-- What is cached is returned and nothing else happens.  If nothing is, or what there is is too
old, the API is asked, and its answer decides what stays under the key. -/
structure ReadsThrough (rate : τ) (space name : Value) (key : Key) (s : TimedCache τ)
    (xs : List (Exchange (requests τ) (Fault τ))) (r : Except (Fault τ) (Option Secret))
    (t : TimedCache τ) : Prop where
  served : ∀ e, s.Serves key e →
    r = .ok (some e.secret) ∧ callsIn xs = [] ∧ t.cache = s.cache
  asked : (∀ e, ¬ s.Serves key e) →
    ∃ a, Attempts rate (fun a => ⟨.read space name, a⟩) xs a ∧ Brings key s t a r

section

variable {rate : τ} {space name : Value} {key : Key} {s t u : TimedCache τ}
  {xs : List (Exchange (requests τ) (Fault τ))} {r : Except (Fault τ) (Option Secret)}

omit [Time τ] in
theorem Brings.of_dropped {a : Except (Fault τ) WireSecret} (h : Brings key t u a r)
    (hdropped : s.Leaves key none t) : Brings key s u a r := by
  cases h with
  | found hread hleaves => exact .found hread (hdropped.trans hleaves)
  | malformed hread hleaves => exact .malformed hread (hdropped.trans hleaves)
  | absent habsent hleaves => exact .absent habsent (hdropped.trans hleaves)
  | failed hpresent hleaves => exact .failed hpresent (hdropped.trans hleaves)

omit [Time τ] in
theorem Brings.others {a : Except (Fault τ) WireSecret} (h : Brings key s t a r) {other : Key}
    (hne : other ≠ key) : t.cache.find? other = s.cache.find? other := by
  cases h with
  | found _ hleaves => exact hleaves.find?_of_ne hne
  | malformed _ hleaves => exact hleaves.find?_of_ne hne
  | absent _ hleaves => exact hleaves.find?_of_ne hne
  | failed _ hleaves => exact hleaves.find?_of_ne hne

/-- What a read through the API makes of its answer: a fault that says that there is nothing is no
fault. -/
def readResult : Except (Fault τ) WireSecret → Except (Fault τ) (Option WireSecret)
  | .ok w => .ok (some w)
  | .error fault => if saysAbsent fault then .ok none else .error fault

omit [Time τ] in
theorem readResult_of_absent {fault : Fault τ} (h : saysAbsent fault = true) :
    readResult (.error fault) = .ok none :=
  if_pos h

omit [Time τ] in
theorem readResult_of_present {fault : Fault τ} (h : saysAbsent fault = false) :
    readResult (.error fault) = .error fault :=
  if_neg (by rw [h]; exact Bool.false_ne_true)

theorem leads_readFailure (fault : Fault τ) : (readFailure fault).Leads medium s fun xs r t =>
    s.KeepsCache xs t ∧ r = readResult (.error fault) := by
  have hcounts : ∀ (series : Series) (result : Except (Fault τ) (Option WireSecret)),
      (count series >>= fun _ => Program.done result).Leads medium s fun xs r t =>
        s.KeepsCache xs t ∧ r = result := by
    intro series result
    exact leads_count_bind fun xs t hrests => leads_done ⟨hrests.trans ⟨rfl, rfl⟩, rfl⟩
  unfold readFailure
  by_cases hapi : fault.isApi = true
  · by_cases habsent : fault.statusOf.isNumber 404 = true
    · rw [if_pos hapi, if_pos habsent, readResult_of_absent (by simp [saysAbsent, hapi, habsent])]
      exact hcounts _ _
    · rw [if_pos hapi, if_neg habsent, readResult_of_present (by simp [saysAbsent, habsent])]
      exact hcounts _ _
  · rw [if_neg hapi, readResult_of_present (by simp [saysAbsent, hapi])]
    exact leads_done ⟨⟨rfl, rfl⟩, rfl⟩

theorem leads_readThrough (rate : τ) (space name : Value) :
    (readThrough rate space name).Leads medium s fun xs r t => t.cache = s.cache ∧
      ∃ a, Attempts rate (fun a => ⟨.read space name, a⟩) xs a ∧ r = readResult a := by
  have hread : ∀ s : TimedCache τ, (ask (.read space name)).Leads medium s fun xs a t =>
      callsIn xs = [⟨.read space name, a⟩] ∧ t.cache = s.cache := fun s =>
    leads_request fun a t h => ⟨rfl, h.2⟩
  refine leads_now_bind fun xs start t hrests => ?_
  have hcall : (spaced rate (ask (.read space name)) >>= fun raw =>
      pure (some raw)).Leads medium t fun ys r u => u.cache = t.cache ∧
        ∃ a, Attempts rate (fun a => ⟨.read space name, a⟩) ys a ∧ r = a.map some := by
    refine leads_bind (leads_spaced rate hread) ?_ ?_
    · rintro ys raw u ⟨hattempts, hcache⟩
      exact leads_done ⟨hcache, .ok raw, hattempts.append rfl, rfl⟩
    · rintro ys fault u ⟨hattempts, hcache⟩
      exact ⟨hcache, .error fault, hattempts, rfl⟩
  have hrecovered : ((spaced rate (ask (.read space name)) >>= fun raw =>
      pure (some raw)).recover readFailure).Leads medium t fun ys r u => u.cache = t.cache ∧
        ∃ a, Attempts rate (fun a => ⟨.read space name, a⟩) ys a ∧ r = readResult a := by
    refine leads_recover hcall ?_ ?_
    · rintro ys found u ⟨hcache, a, hattempts, hfound⟩
      cases a with
      | ok raw => exact ⟨hcache, .ok raw, hattempts, hfound⟩
      | error fault => cases hfound
    · rintro ys fault u ⟨hcache, a, hattempts, hfault⟩
      cases a with
      | ok raw => cases hfault
      | error fault =>
        cases hfault
        refine (leads_readFailure fault).imp ?_
        rintro zs r v ⟨hrests, hr⟩
        exact ⟨hrests.cache.trans hcache, .error fault, hattempts.append hrests.calls, hr⟩
  refine leads_always hrecovered ?_
  rintro ys r u ⟨hcache, a, hattempts, hr⟩
  refine (leads_measureSince start _).imp ?_
  rintro zs _ v ⟨hmeasured, rfl⟩
  refine ⟨rfl, ?_, a, (hattempts.append hmeasured.calls).prepend hrests.calls, hr⟩
  exact (hmeasured.cache.trans hcache).trans hrests.cache

theorem leads_takeIn {raw : WireSecret}
    (hown : ∀ secret, Secret.ofWire raw = .ok secret → secret.key = .ok key) :
    (takeIn raw).Leads medium s fun xs r t => callsIn xs = [] ∧
      ((∃ reason, Secret.ofWire raw = .error reason ∧ r = .error (.malformed reason) ∧
          t.cache = s.cache) ∨
        ∃ secret, Secret.ofWire raw = .ok secret ∧ r = .ok (some secret) ∧
          s.Leaves key (some ⟨secret, t.clock⟩) t) := by
  refine leads_count_bind fun xs t hrests => ?_
  refine leads_checked_bind (fun secret hread => ?_) fun reason hread => ?_
  · refine leads_bind (leads_cachePut (hown secret hread)) ?_ ?_
    · rintro ys _ u ⟨hcalls, -, hleaves⟩
      refine leads_done ⟨?_, .inr ⟨secret, hread, rfl, hleaves.congr_start hrests.cache⟩⟩
      rw [List.append_nil, hrests.callsIn_append, hcalls]
    · rintro ys _ u ⟨-, ⟨⟩, -⟩
  · rw [List.append_nil]
    exact ⟨hrests.calls, .inl ⟨reason, hread, rfl, hrests.cache⟩⟩

/-- Where nothing is cached under the key, the API is asked, and at most what it has brought is
cached there afterwards. -/
theorem leads_miss (rate : τ) (hkey : Key.ofValues space name = .ok key)
    (hnone : s.cache.find? key = none) :
    (readThrough rate space name >>= fun found => match found with
      | none => pure none
      | some raw => takeIn raw).Leads medium s fun xs r t =>
        (∀ w, ⟨.read space name, .ok w⟩ ∈ xs → WireSecret.HasAddress w space name) →
          ∃ a, Attempts rate (fun a => ⟨.read space name, a⟩) xs a ∧ Brings key s t a r := by
  refine leads_bind (leads_readThrough rate space name) ?_ ?_
  · rintro xs found t ⟨hcache, a, hattempts, hfound⟩
    cases a with
    | ok raw =>
      cases hfound
      by_cases haddress : WireSecret.HasAddress raw space name
      · have hown : ∀ secret, Secret.ofWire raw = .ok secret → secret.key = .ok key := by
          intro secret hread
          rw [Secret.key_of_ofWire hread]
          exact haddress.trans hkey
        refine (leads_takeIn hown).imp ?_
        rintro ys r u ⟨hcalls, ⟨reason, hread, rfl, hsame⟩ | ⟨secret, hread, rfl, hleaves⟩⟩ -
        · exact ⟨.ok raw, hattempts.append hcalls,
            .malformed hread (.of_cache (hsame.trans hcache) hnone)⟩
        · exact ⟨.ok raw, hattempts.append hcalls,
            .found hread (hleaves.congr_start hcache)⟩
      · -- An answer about another secret is ruled out by the hypothesis on what was exchanged.
        intro ys r u _ _ hhonest
        exact absurd (hhonest raw (List.mem_append_left _ hattempts.mem_of_ok)) haddress
    | error fault =>
      cases habsent : saysAbsent fault with
      | true =>
        rw [readResult_of_absent habsent] at hfound
        cases hfound
        exact leads_done fun _ =>
          ⟨.error fault, hattempts.append rfl, .absent habsent (.of_cache hcache hnone)⟩
      | false =>
        rw [readResult_of_present habsent] at hfound
        cases hfound
  · rintro xs fault t ⟨hcache, a, hattempts, hfault⟩ -
    cases a with
    | ok raw => cases hfault
    | error fault' =>
      cases habsent : saysAbsent fault' with
      | true =>
        rw [readResult_of_absent habsent] at hfault
        cases hfault
      | false =>
        rw [readResult_of_present habsent] at hfault
        cases hfault
        exact ⟨_, hattempts, .failed habsent (.of_cache hcache hnone)⟩

/-- A look-up reads through the cache, as long as the API answers a read with what was asked for. -/
theorem leads_lookUp (rate : τ) (hkey : Key.ofValues space name = .ok key) :
    (lookUp rate space name).Leads medium s fun xs r t =>
      (∀ w, ⟨.read space name, .ok w⟩ ∈ xs → WireSecret.HasAddress w space name) →
        ReadsThrough rate space name key s xs r t := by
  have hgets : (ask (.cacheGet key)).Leads medium s fun xs a t => callsIn xs = [] ∧
      a = .ok (s.cache.get key s.clock).1 ∧ t = { s with cache := (s.cache.get key s.clock).2 } :=
    leads_request fun a t h => ⟨rfl, h⟩
  have hchecked : checked (Key.ofValues space name) = (pure key : Task τ Key) := by
    rw [hkey]
    rfl
  rw [lookUp, hchecked, pure_bind]
  refine leads_bind hgets ?_ ?_
  · rintro xs found t ⟨hcalls, hfound, rfl⟩
    obtain rfl := Except.ok.inj hfound
    cases hgot : (s.cache.get key s.clock).1 with
    | some secret =>
      obtain ⟨e, hstored, hfresh, rfl⟩ := Cache.find?_of_get _ _ _ hgot
      have hsame : (s.cache.get key s.clock).2 = s.cache := by
        rw [Cache.get, hstored]
        simp [hfresh]
      refine leads_count_bind fun ys u hrests => ?_
      refine leads_done fun _ => ⟨fun e' he' => ?_, fun hnone => ?_⟩
      · obtain rfl : e = e' := Option.some.inj (hstored.symm.trans he'.stored)
        refine ⟨rfl, ?_, hrests.cache.trans hsame⟩
        rw [List.append_nil, callsIn_append, hcalls, hrests.calls]
        rfl
      · exact absurd ⟨hstored, hfresh⟩ (hnone e)
    | none =>
      have hdropped : s.Leaves key none { s with cache := (s.cache.get key s.clock).2 } :=
        Cache.find?_get_of_miss s.cache hgot
      refine (leads_miss rate hkey hdropped.find?).imp ?_
      rintro ys r u hmiss hhonest
      obtain ⟨a, hattempts, hbrings⟩ := hmiss fun w hw => hhonest w (List.mem_append_right _ hw)
      refine ⟨fun e he => ?_, fun _ => ⟨a, hattempts.prepend hcalls, hbrings.of_dropped hdropped⟩⟩
      rw [Cache.get_of_find? _ _ _ he.stored (of_decide_eq_false he.fresh)] at hgot
      cases hgot
  · rintro xs _ t ⟨-, ⟨⟩, -⟩

/-- Other keys are not touched. -/
theorem ReadsThrough.others (h : ReadsThrough rate space name key s xs r t) {other : Key}
    (hne : other ≠ key) : t.cache.find? other = s.cache.find? other := by
  by_cases hserves : ∃ e, s.Serves key e
  · obtain ⟨e, he⟩ := hserves
    rw [(h.served e he).2.2]
  · obtain ⟨a, -, hbrings⟩ := h.asked fun e he => hserves ⟨e, he⟩
    exact hbrings.others hne

/-- If a turn can be had, the API is called just if nothing is handed out. -/
theorem ReadsThrough.calls_iff (h : ReadsThrough rate space name key s xs r t)
    (hturn : ∀ fault, ¬ LacksTurn rate xs fault) :
    callsIn xs ≠ [] ↔ ∀ e, ¬ s.Serves key e := by
  constructor
  · intro hcalls e he
    exact hcalls (h.served e he).2.1
  · intro hnone
    obtain ⟨a, hattempts, -⟩ := h.asked hnone
    cases hattempts with
    | limited _ hlacks _ => exact absurd hlacks (hturn _)
    | called hcalls =>
      rw [hcalls]
      exact List.cons_ne_nil _ _

/-- That there is no secret is always the answer to a call that was made just now. -/
theorem ReadsThrough.absent (h : ReadsThrough rate space name key s xs (.ok none) t) :
    ∃ fault, callsIn xs = [⟨.read space name, .error fault⟩] ∧ saysAbsent fault = true := by
  have hnone : ∀ e, ¬ s.Serves key e := by
    intro e he
    cases (h.served e he).1
  obtain ⟨a, hattempts, hbrings⟩ := h.asked hnone
  cases hbrings with
  | @absent fault habsent _ =>
    cases hattempts with
    | limited _ _ hplain => simp [saysAbsent, hplain] at habsent
    | called hcalls => exact ⟨fault, hcalls, habsent⟩

/-- What is cached under the key after a look-up was returned by it, or was just brought by it. -/
theorem ReadsThrough.of_cached {e : Entry τ} (h : ReadsThrough rate space name key s xs r t)
    (he : t.cache.find? key = some e) :
    (s.cache.find? key = some e ∧ callsIn xs = [] ∧ r = .ok (some e.secret)) ∨
      (∃ w, callsIn xs = [⟨.read space name, .ok w⟩] ∧ Secret.ofWire w = .ok e.secret) ∧
        e.storedAt = t.clock := by
  by_cases hserves : ∃ e', s.Serves key e'
  · obtain ⟨e', he'⟩ := hserves
    obtain ⟨hresult, hcalls, hcache⟩ := h.served e' he'
    rw [hcache] at he
    obtain rfl : e = e' := Option.some.inj (he.symm.trans he'.stored)
    exact .inl ⟨he, hcalls, hresult⟩
  · obtain ⟨a, hattempts, hbrings⟩ := h.asked fun e' he' => hserves ⟨e', he'⟩
    cases hbrings with
    | @found w secret hread hleaves =>
      obtain rfl := Option.some.inj (hleaves.find?.symm.trans he)
      cases hattempts with
      | called hcalls => exact .inr ⟨⟨w, hcalls, hread⟩, rfl⟩
    | malformed _ hleaves => cases hleaves.find?.symm.trans he
    | absent _ hleaves => cases hleaves.find?.symm.trans he
    | failed _ hleaves => cases hleaves.find?.symm.trans he

end

/-! ## Look-ups one after another -/

/-- A look-up, what was exchanged in it, what it came to, and when it was done. -/
structure Get (τ : Type) where
  space : Value
  name : Value
  exchanges : List (Exchange (requests τ) (Fault τ))
  result : Except (Fault τ) (Option Secret)
  done : τ

namespace Get

def IsOf (g : Get τ) (key : Key) : Prop := Key.ofValues g.space g.name = .ok key

/-- The API answers the read with what was asked for. -/
def IsHonest (g : Get τ) : Prop :=
  ∀ w, ⟨.read g.space g.name, .ok w⟩ ∈ g.exchanges → WireSecret.HasAddress w g.space g.name

/-- The look-up has returned what was cached, without a call. -/
structure Returns (g : Get τ) (e : Entry τ) : Prop where
  calls : callsIn g.exchanges = []
  result : g.result = .ok (some e.secret)

/-- The look-up has read a secret through the API and has cached it when it was done. -/
structure Puts (g : Get τ) (key : Key) (e : Entry τ) : Prop where
  isOf : g.IsOf key
  read : ∃ w, callsIn g.exchanges = [⟨.read g.space g.name, .ok w⟩] ∧
    Secret.ofWire w = .ok e.secret
  storedAt : e.storedAt = g.done

end Get

/-- The entry is what was put last under the key: by one of the look-ups, or before them.  Since
then all look-ups under the key have returned it. -/
inductive IsLastPut (key : Key) (c : Cache τ) : List (Get τ) → Entry τ → Prop where
  | before {gs : List (Get τ)} {e : Entry τ} (hstored : c.find? key = some e)
    (hsince : ∀ g ∈ gs, g.IsOf key → g.Returns e) : IsLastPut key c gs e
  | put {earlier later : List (Get τ)} {g : Get τ} {e : Entry τ} (hputs : g.Puts key e)
    (hsince : ∀ g' ∈ later, g'.IsOf key → g'.Returns e) :
    IsLastPut key c (earlier ++ g :: later) e

namespace Handler

variable (W : Handler τ S) (rate : τ)

/-- The surroundings after a look-up. -/
def afterGet (s : S) (space name : Value) : S := ((lookUp rate space name).run W.handle s).2

/-- A look-up made in some surroundings. -/
def get (s : S) (space name : Value) : Get τ where
  space := space
  name := name
  exchanges := (lookUp rate space name).trace W.handle s
  result := ((lookUp rate space name).run W.handle s).1
  done := (W.timedCache (W.afterGet rate s space name)).clock

/-- Look-ups one after another, by answers of the API that are about what was asked for.  Between
them anything may happen that leaves the cache as it is. -/
inductive Gets : S → List (Get τ) → S → Prop where
  | none (s : S) : Gets s [] s
  | pass {s t u : S} {gs : List (Get τ)} (hgets : Gets s gs t)
    (hcache : (W.timedCache u).cache = (W.timedCache t).cache) : Gets s gs u
  | get {s t : S} {gs : List (Get τ)} {space name : Value} (hgets : Gets s gs t)
    (hhonest : (W.get rate t space name).IsHonest) :
    Gets s (gs ++ [W.get rate t space name]) (W.afterGet rate t space name)

end Handler

section

variable {W : Handler τ S} {rate : τ} {s t : S} {gs : List (Get τ)} {space name : Value} {key : Key}
  {c : Cache τ} {e : Entry τ}

theorem Handler.readsThrough (W : Handler τ S) (rate : τ) (s : S)
    (hkey : Key.ofValues space name = .ok key) (hhonest : (W.get rate s space name).IsHonest) :
    ReadsThrough rate space name key (W.timedCache s) (W.get rate s space name).exchanges
      (W.get rate s space name).result (W.timedCache (W.afterGet rate s space name)) :=
  W.leads (leads_lookUp rate hkey) hhonest

omit [Time τ] in
/-- A look-up under another key, or one that returns the entry, does not change what was put
last. -/
theorem IsLastPut.concat {g : Get τ} (h : IsLastPut key c gs e) (hg : g.IsOf key → g.Returns e) :
    IsLastPut key c (gs ++ [g]) e := by
  have hsince : ∀ {gs : List (Get τ)}, (∀ g ∈ gs, g.IsOf key → g.Returns e) →
      ∀ g' ∈ gs ++ [g], g'.IsOf key → g'.Returns e := by
    intro gs hgs g' hg'
    rcases List.mem_append.1 hg' with hg' | hg'
    · exact hgs g' hg'
    · rw [List.mem_singleton.1 hg']
      exact hg
  cases h with
  | before hstored hgs => exact .before hstored (hsince hgs)
  | put hputs hlater =>
    rw [List.append_assoc, List.cons_append]
    exact .put hputs (hsince hlater)

/-- After a look-up, what is cached is still what was put last. -/
theorem IsLastPut.get (h : ∀ key e, (W.timedCache t).cache.find? key = some e →
    IsLastPut key c gs e)
    (hhonest : (W.get rate t space name).IsHonest) :
    ∀ key e, (W.timedCache (W.afterGet rate t space name)).cache.find? key = some e →
      IsLastPut key c (gs ++ [W.get rate t space name]) e := by
  intro key e he
  cases hkey : Key.ofValues space name with
  | error reason =>
    have hsame : W.afterGet rate t space name = t := by
      rw [Handler.afterGet, lookUp, hkey]
      rfl
    rw [hsame] at he
    refine (h key e he).concat fun hof => ?_
    cases hkey.symm.trans hof
  | ok own =>
    have hreads := W.readsThrough rate t hkey hhonest
    by_cases hne : key = own
    · subst hne
      rcases hreads.of_cached he with ⟨hbefore, hcalls, hresult⟩ | ⟨hread, hstored⟩
      · exact (h key e hbefore).concat fun _ => ⟨hcalls, hresult⟩
      · refine .put ⟨hkey, hread, hstored⟩ ?_
        rintro g' ⟨⟩
    · rw [hreads.others hne] at he
      refine (h key e he).concat fun hof => ?_
      exact absurd (Except.ok.inj (hof.symm.trans hkey)) hne

/-- Whatever was looked up, what is cached is what was put last. -/
theorem Handler.Gets.isLastPut (h : W.Gets rate s gs t) :
    ∀ key e, (W.timedCache t).cache.find? key = some e →
      IsLastPut key (W.timedCache s).cache gs e := by
  induction h with
  | none => exact fun key e he => .before he nofun
  | pass _ hcache ih =>
    rw [hcache]
    exact ih
  | get _ hhonest ih => exact IsLastPut.get ih hhonest

/-- After any look-ups a look-up hands out the entry under its key if there is one that is not too
old: this was put last under the key, by a look-up or before them, and nothing is called and nothing
changes.  Otherwise it asks the API, and the key holds what was found, as of now, or nothing if
there was an error, which is passed on unless it says that there is no secret.  So that there is
none is told by a call of this very look-up.  Other keys are not touched. -/
theorem get_reads_through (hgets : W.Gets rate s gs t)
    (hkey : Key.ofValues space name = .ok key) (hhonest : (W.get rate t space name).IsHonest) :
    let g := W.get rate t space name
    ReadsThrough rate space name key (W.timedCache t) g.exchanges g.result
        (W.timedCache (W.afterGet rate t space name)) ∧
      ((∀ fault, ¬ LacksTurn rate g.exchanges fault) →
        (callsIn g.exchanges ≠ [] ↔ ∀ e, ¬ (W.timedCache t).Serves key e)) ∧
      (g.result = .ok none → ∃ fault,
        callsIn g.exchanges = [⟨.read space name, .error fault⟩] ∧ saysAbsent fault = true) ∧
      ∀ e, (W.timedCache t).Serves key e → IsLastPut key (W.timedCache s).cache gs e := by
  have hreads := W.readsThrough rate t hkey hhonest
  refine ⟨hreads, hreads.calls_iff, fun habsent => ?_, fun e he => ?_⟩
  · rw [habsent] at hreads
    exact hreads.absent
  · exact hgets.isLastPut key e he.stored

end

namespace Example

/-- A record that can be read as a secret. -/
def record : WireSecret := { metadata := { name := .text "config", space := .text "apps" } }

/-- The API answers every read with the record. -/
def reading : Handler ℚ (TimedCache ℚ) := .steady (.ok record) (.ok none)

/-- Nothing is cached yet. -/
def empty : TimedCache ℚ := ⟨1000, { ttl := 30 }⟩

/-- The record is what is asked for. -/
theorem isHonest_reading (s : TimedCache ℚ) :
    (reading.get 8 s (.text "apps") (.text "config")).IsHonest := by
  intro w hw
  have hanswer : ∀ x ∈ (lookUp 8 (.text "apps") (.text "config")).trace reading.handle s,
      ∀ w, x = ⟨.read (.text "apps") (.text "config"), .ok w⟩ → w = record :=
    forall_mem_trace (fun q s w hq => by cases q <;> cases hq; rfl) _ s
  rw [hanswer _ hw w rfl]
  rfl

end Example

open TimedCache.Example in
/-- Of two look-ups ten seconds apart the second one returns what the first one has read. -/
theorem get_reads_through_twice :
    ∃ (t : TimedCache ℚ) (gs : List (Get ℚ)) (e : Entry ℚ), reading.Gets 8 empty gs t ∧
      t.Serves (.ofTexts "apps" "config") e ∧
      (reading.get 8 t (.text "apps") (.text "config")).result = .ok (some e.secret) ∧
      IsLastPut (.ofTexts "apps" "config") empty.cache gs e := by
  let first := reading.afterGet 8 empty (.text "apps") (.text "config")
  let later : TimedCache ℚ := { first with clock := first.clock + 10 }
  have hgets : reading.Gets 8 empty [reading.get 8 empty (.text "apps") (.text "config")] later :=
    .pass (.get (.none empty) (isHonest_reading empty)) rfl
  have hhit : (later.cache.get (.ofTexts "apps" "config") later.clock).1.isSome = true := by
    decide +kernel
  obtain ⟨secret, hsecret⟩ := Option.isSome_iff_exists.1 hhit
  obtain ⟨e, hstored, hfresh, -⟩ := Cache.find?_of_get _ _ _ hsecret
  obtain ⟨hreads, -, -, hlast⟩ := get_reads_through hgets rfl (isHonest_reading later)
  have hserves : later.Serves (.ofTexts "apps" "config") e := ⟨hstored, hfresh⟩
  exact ⟨later, _, e, hgets, hserves, (hreads.served e hserves).1, hlast e hserves⟩

end TimedCache

end SecretMirror
