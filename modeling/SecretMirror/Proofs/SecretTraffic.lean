import SecretMirror.Proofs.Notes
import SecretMirror.Proofs.UntrustedCluster.CacheContents
import SecretMirror.Proofs.UntrustedCluster.Writes
import SecretMirror.Proofs.Recovery.Frame

/-!
# Traffic of secrets

Of all that a program asks, only the operations on the cache and the calls of the API deal with
secrets (`Operator.traffic`).  For each collaborator of a synchronisation its traffic is described
here, whatever is answered, as long as the answers are about what was asked for and bookkeeping does
not fail.

* All that is cached was brought by the API before (`Operator.Supplies`).
* A look-up drops nothing and writes nothing (`Operator.LooksUp`).
* A write that was made drops nothing.  One that could not be made, for whatever reason, fails, and
  nothing is cached under its key then (`Operator.WritesOut`).
-/

namespace SecretMirror.Operator

open Program hiding bind ask

variable {τ α β : Type}

/-! ## The view -/

/-- The request deals with secrets: it uses the cache or calls the API. -/
def Request.IsTraffic : Request τ → Bool
  | .cacheGet _ => true
  | .cachePut _ => true
  | .cacheForget .. => true
  | .read .. => true
  | .create .. => true
  | .replace .. => true
  | _ => false

def traffic : Exchange (requests τ) (Fault τ) → Option (Exchange (requests τ) (Fault τ)) :=
  Option.guard fun x => x.request.IsTraffic

/-- The surroundings do what is never refused, and answer what was asked for. -/
def IsTrusted (x : Exchange (requests τ) (Fault τ)) : Prop := IsReliable x ∧ IsHonest x

theorem traffic_eq_none {x : Exchange (requests τ) (Fault τ)} (h : x.request.IsTraffic = false) :
    traffic x = none := by
  simp [traffic, Option.guard, h]

theorem mem_traffic {x : Exchange (requests τ) (Fault τ)}
    {xs : List (Exchange (requests τ) (Fault τ))} (hx : x ∈ xs)
    (h : x.request.IsTraffic = true) : x ∈ xs.filterMap traffic :=
  List.mem_filterMap.2 ⟨x, hx, by simp [traffic, Option.guard, h]⟩

theorem of_mem_traffic {x : Exchange (requests τ) (Fault τ)}
    {xs : List (Exchange (requests τ) (Fault τ))} (hx : x ∈ xs.filterMap traffic) : x ∈ xs := by
  obtain ⟨y, hy, htraffic⟩ := List.mem_filterMap.1 hx
  obtain ⟨rfl, -⟩ := Option.guard_eq_some_iff.1 htraffic
  exact hy

theorem Request.Puts.isTraffic {key : Key} {q : Request τ} (h : q.Puts key) :
    q.IsTraffic = true := by
  cases q <;> first | rfl | exact h.elim

theorem Request.Drops.isTraffic {key : Key} {q : Request τ} (h : q.Drops key) :
    q.IsTraffic = true := by
  cases q <;> first | rfl | exact h.elim

theorem isTraffic_of_hasWritten {x : Exchange (requests τ) (Fault τ)}
    (h : hasWritten x = true) : x.request.IsTraffic = true := by
  unfold hasWritten at h
  split at h <;> first | rfl | cases h

/-- What is put into the cache deals with secrets, so a moment since which nothing is cached can be
told from the traffic. -/
theorem vacates_of_traffic {key : Key} {xs : List (Exchange (requests τ) (Fault τ))}
    (h : Vacates key (xs.filterMap traffic)) : Vacates key xs := by
  obtain ⟨before, x, after, hsplit, hdrops, hafter⟩ := h
  obtain ⟨before', rest, rfl, -, hrest⟩ := List.filterMap_eq_append_iff.1 hsplit
  obtain ⟨aside, y, after', rfl, -, hy, rfl⟩ := List.filterMap_eq_cons_iff.1 hrest
  obtain ⟨rfl, -⟩ := Option.guard_eq_some_iff.1 hy
  refine ⟨before' ++ aside, y, after', by simp, hdrops, fun z hz hput => ?_⟩
  exact hafter z (mem_traffic hz hput.isTraffic) hput

/-- However the program ends, its traffic and its result are related so. -/
abbrev HasTraffic (p : Task τ α)
    (Q : List (Exchange (requests τ) (Fault τ)) → Except (Fault τ) α → Prop) : Prop :=
  p.Enters IsTrusted traffic Q

theorem hasTraffic_ask {q : Request τ} (hq : q.IsTraffic = true) :
    HasTraffic (ask q) fun es a => es = [⟨q, a⟩] ∧ IsTrusted ⟨q, a⟩ :=
  enters_request fun a ha => ⟨by simp [traffic, Option.guard, hq], ha⟩

/-! ## Programs without traffic -/

/-- The program deals with no secrets. -/
abbrev NoTraffic (p : Task τ α) : Prop := p.AsksOnly fun q : Request τ => q.IsTraffic = false

theorem NoTraffic.hasTraffic_bind {p : Task τ α} {f : α → Task τ β}
    {Q : List (Exchange (requests τ) (Fault τ)) → Except (Fault τ) β → Prop} (hp : NoTraffic p)
    (hok : ∀ a, HasTraffic (f a) Q) (herror : ∀ fault, Q [] (.error fault)) : HasTraffic (p >>= f)
    Q :=
  hp.enters_bind (fun _ => traffic_eq_none) hok herror

theorem noTraffic_ask {q : Request τ} (hq : q.IsTraffic = false) : NoTraffic (ask q) :=
  behaves_request fun _ _ => hq

theorem noTraffic_connect : NoTraffic (connect (τ := τ)) := asksOnly_connect rfl rfl

theorem NoTraffic.hasTraffic {p : Task τ α} {Q : List (Note τ) → Except (Fault τ) α → Prop}
    (hp : NoTraffic p) (h : p.Enters IsTrusted (noted fun _ => true) Q) :
    HasTraffic p fun es r => es = [] ∧ ∃ notes, Q notes r :=
  fun xs r hxs htrusted =>
    ⟨hp.enters (fun _ => traffic_eq_none) xs r hxs htrusted, _, h xs r hxs htrusted⟩

theorem hasTraffic_now : HasTraffic (now (τ := τ)) fun es r => es = [] ∧ ∃ time, r = .ok time := by
  refine ((noTraffic_ask rfl).hasTraffic (enters_now fun _ h => h.1)).imp ?_
  rintro _ _ ⟨rfl, _, -, time, rfl⟩
  exact ⟨rfl, time, rfl⟩

theorem hasTraffic_measure (update : Metrics.Update τ) :
    HasTraffic (ask (.measure update)) fun es r => es = [] ∧ r = .ok () := by
  refine ((noTraffic_ask rfl).hasTraffic (enters_measure (fun _ h => h.1) update)).imp ?_
  rintro _ _ ⟨rfl, _, -, rfl⟩
  exact ⟨rfl, rfl⟩

variable [Time τ]

theorem noTraffic_count (s : Series) : NoTraffic (count (τ := τ) s) := noTraffic_ask rfl

theorem noTraffic_takeTurn (rate : τ) : NoTraffic (takeTurn rate) := by
  refine (takesTurn_takeTurn rate).imp fun q hq => ?_
  cases q <;> first | rfl | exact hq.elim

theorem noTraffic_measureSince (start : τ) (s : Series) : NoTraffic (measureSince start s) :=
  behaves_bind (noTraffic_ask rfl) fun _ _ _ => noTraffic_ask rfl

theorem noTraffic_recordFailure (trigger : Value) (fault : Fault τ) :
    NoTraffic (recordFailure trigger fault) := by
  refine behaves_bind (noTraffic_count _) fun _ _ _ => ?_
  refine behaves_bind (noTraffic_count _) fun _ _ _ => ?_
  exact behaves_bind (asksOnly_done _ _) fun _ _ line => noTraffic_ask rfl

theorem hasTraffic_measureSince (start : τ) (s : Series) :
    HasTraffic (measureSince start s) fun es r => es = [] ∧ r = .ok () := by
  refine ((noTraffic_measureSince start s).hasTraffic
    (enters_measureSince (fun _ h => h.1) start s)).imp ?_
  rintro _ _ ⟨rfl, _, -, rfl⟩
  exact ⟨rfl, rfl⟩

theorem hasTraffic_recordFailure (trigger : String) (fault : Fault τ) :
    HasTraffic (recordFailure (.text trigger) fault) fun es r => es = [] ∧ r = .ok () := by
  refine ((noTraffic_recordFailure (.text trigger) fault).hasTraffic
    (enters_recordFailure (fun _ h => h.1) trigger fault)).imp ?_
  rintro _ _ ⟨rfl, _, -, rfl⟩
  exact ⟨rfl, rfl⟩

/-! ## What the API brings -/

/-- An exchange with the API has brought a secret: it was read, or this is what was stored by a
write, which is the answer, or what was sent if there is none. -/
inductive Supplies : Exchange (requests τ) (Fault τ) → Secret → Prop where
  | read {space name : Value} {w : WireSecret} {s : Secret} (hread : Secret.ofWire w = .ok s) :
    Supplies ⟨.read space name, .ok w⟩ s
  | created {space : Value} {body w : WireSecret} {s : Secret} (hread : Secret.ofWire w = .ok s) :
    Supplies ⟨.create space body, .ok (some w)⟩ s
  | replaced {space name : Value} {body w : WireSecret} {s : Secret}
    (hread : Secret.ofWire w = .ok s) : Supplies ⟨.replace space name body, .ok (some w)⟩ s
  | createdAsSent {s : Secret} {body : WireSecret} (hbody : s.toWire = .ok body) :
    Supplies ⟨.create s.space (WireSecret.unversioned body), .ok none⟩ s
  | replacedAsSent {s : Secret} {body : WireSecret} (hbody : s.toWire = .ok body) :
    Supplies ⟨.replace s.space s.name body, .ok none⟩ s

/-- All that was put into the cache was brought by the API. -/
def IsSupplied (xs : List (Exchange (requests τ) (Fault τ))) : Prop :=
  ∀ x ∈ xs, ∀ s, x.request = .cachePut s → ∃ y ∈ xs, Supplies y s

def DropsNothing (xs : List (Exchange (requests τ) (Fault τ))) : Prop :=
  ∀ x ∈ xs, ∀ key, ¬ x.request.Drops key

/-! ## Reading -/

/-- The traffic of a look-up.  It writes nothing, drops nothing, and caches only what it has
read. -/
structure LooksUp (key : Key) (es : List (Exchange (requests τ) (Fault τ)))
    (r : Except (Fault τ) (Option Secret)) : Prop where
  supplied : IsSupplied es
  dropsNothing : DropsNothing es
  /-- Nothing is written. -/
  readsOnly : ∀ x ∈ es, hasWritten x = false
  /-- What is found is what was asked for. -/
  own : ∀ s, r = .ok (some s) → s.key = .ok key

/-- Whatever a read comes to, nothing else is asked, and what is returned is the answer. -/
def Reads (space name : Value) (es : List (Exchange (requests τ) (Fault τ)))
    (r : Except (Fault τ) (Option WireSecret)) : Prop :=
  (∀ x ∈ es, ∃ a, x = ⟨.read space name, a⟩) ∧
    ∀ w, r = .ok (some w) → WireSecret.HasAddress w space name ∧
      (⟨.read space name, .ok w⟩ : Exchange (requests τ) (Fault τ)) ∈ es

theorem hasTraffic_readFailure (fault : Fault τ) :
    HasTraffic (readFailure fault) fun es r => es = [] ∧ ∀ w, r ≠ .ok (some w) := by
  unfold readFailure
  by_cases hapi : fault.isApi = true
  · by_cases habsent : fault.statusOf.isNumber 404 = true
    · rw [if_pos hapi, if_pos habsent]
      exact (noTraffic_count _).hasTraffic_bind (fun _ => enters_done ⟨rfl, nofun⟩) fun _ =>
        ⟨rfl, nofun⟩
    · rw [if_pos hapi, if_neg habsent]
      exact (noTraffic_count _).hasTraffic_bind (fun _ => enters_done ⟨rfl, nofun⟩) fun _ =>
        ⟨rfl, nofun⟩
  · rw [if_neg hapi]
    exact enters_done ⟨rfl, nofun⟩

theorem hasTraffic_readThrough (rate : τ) (space name : Value) :
    HasTraffic (readThrough rate space name) (Reads space name) := by
  have hnothing : ∀ r : Except (Fault τ) (Option WireSecret), (∀ w, r ≠ .ok (some w)) →
      Reads space name [] r := fun r hr => ⟨by simp, fun w hw => absurd hw (hr w)⟩
  have hcall : HasTraffic (spaced rate (ask (.read space name)) >>= fun raw => pure (some raw))
      (Reads space name) := by
    rw [spaced_bind]
    refine (noTraffic_takeTurn rate).hasTraffic_bind (fun _ => ?_) fun _ => hnothing _ nofun
    refine enters_bind (hasTraffic_ask rfl) ?_ ?_
    · rintro _ raw ⟨rfl, -, hhonest⟩
      have haddress : WireSecret.HasAddress raw space name := hhonest
      exact enters_done ⟨by simp, by simp [haddress]⟩
    · rintro _ fault ⟨rfl, -⟩
      exact ⟨by simp, nofun⟩
  refine (noTraffic_ask rfl).hasTraffic_bind (fun start => ?_) fun _ => hnothing _ nofun
  refine enters_always (enters_recover hcall (fun _ _ h => h) fun es fault hes => ?_) ?_
  · refine (hasTraffic_readFailure fault).imp ?_
    rintro _ r ⟨rfl, hr⟩
    rw [List.append_nil]
    exact ⟨hes.1, fun w hw => absurd hw (hr w)⟩
  · intro es r hes
    refine (hasTraffic_measureSince start _).imp ?_
    rintro _ _ ⟨rfl, rfl⟩
    rw [List.append_nil]
    exact ⟨rfl, hes⟩

theorem hasTraffic_takeIn (raw : WireSecret) : HasTraffic (takeIn (τ := τ) raw) fun es r =>
    (∀ x ∈ es, ∃ s, x.request = .cachePut s ∧ Secret.ofWire raw = .ok s) ∧
      ∀ found, r = .ok found → ∃ s, found = some s ∧ Secret.ofWire raw = .ok s := by
  refine (noTraffic_count _).hasTraffic_bind (fun _ => ?_) fun _ => ⟨by simp, nofun⟩
  refine enters_checked_bind (fun s hs => ?_) fun _ => ⟨by simp, nofun⟩
  refine enters_bind (hasTraffic_ask rfl) ?_ ?_
  · rintro _ _ ⟨rfl, -⟩
    refine enters_done ⟨by simp [hs], ?_⟩
    rintro found ⟨⟩
    exact ⟨s, rfl, hs⟩
  · rintro _ fault ⟨rfl, -⟩
    exact ⟨by simp [hs], nofun⟩

omit [Time τ] in
theorem LooksUp.of_missed {space name : Value} {key : Key}
    {reads : List (Exchange (requests τ) (Fault τ))} {r : Except (Fault τ) (Option Secret)}
    (puts : List (Exchange (requests τ) (Fault τ)))
    (hreads : ∀ x ∈ reads, ∃ a, x = ⟨.read space name, a⟩)
    (hputs : ∀ x ∈ puts, ∃ s, x.request = .cachePut s ∧ ∃ y ∈ reads, Supplies y s)
    (hown : ∀ s, r = .ok (some s) → s.key = .ok key) :
    LooksUp key (⟨.cacheGet key, .ok none⟩ :: (reads ++ puts)) r := by
  have hcases : ∀ x ∈ (⟨.cacheGet key, .ok none⟩ :: (reads ++ puts) :
      List (Exchange (requests τ) (Fault τ))), x = ⟨.cacheGet key, .ok none⟩ ∨
        (∃ a, x = ⟨.read space name, a⟩) ∨
          ∃ s, x.request = .cachePut s ∧ ∃ y ∈ reads, Supplies y s := by
    intro x hx
    rcases List.mem_cons.1 hx with rfl | hx
    · exact .inl rfl
    · exact .inr ((List.mem_append.1 hx).imp (hreads x) (hputs x))
  constructor
  · intro x hx s hput
    rcases hcases x hx with rfl | ⟨a, rfl⟩ | ⟨s', hput', y, hy, hsupplies⟩
    · cases hput
    · cases hput
    · obtain rfl : s' = s := by simpa [hput'] using hput
      exact ⟨y, by simp [hy], hsupplies⟩
  · intro x hx other hdrops
    rcases hcases x hx with rfl | ⟨a, rfl⟩ | ⟨s', hput', -⟩
    · exact hdrops
    · exact hdrops
    · rw [hput'] at hdrops
      exact hdrops
  · intro x hx
    rcases hcases x hx with rfl | ⟨a, rfl⟩ | ⟨s', hput', -⟩
    · rfl
    · rfl
    · obtain ⟨q, a⟩ := x
      obtain rfl : q = .cachePut s' := hput'
      rfl
  · exact hown

theorem hasTraffic_lookUp (rate : τ) {space name : Value} {key : Key}
    (hkey : Key.ofValues space name = .ok key) :
    HasTraffic (lookUp rate space name) (LooksUp key) := by
  -- Asking the cache neither caches, drops nor writes anything, whatever comes of it.
  have hsingle : ∀ {a : Except (Fault τ) (Option Secret)} {r : Except (Fault τ) (Option Secret)},
      (∀ s, r = .ok (some s) → s.key = .ok key) → LooksUp key [⟨.cacheGet key, a⟩] r := by
    intro a r hown
    refine ⟨?_, ?_, ?_, hown⟩
    · simp [IsSupplied]
    · simp [DropsNothing, Request.Drops]
    · simp [hasWritten]
  have hchecked : checked (Key.ofValues space name) = (pure key : Task τ Key) := by
    rw [hkey]
    rfl
  rw [lookUp, hchecked, pure_bind]
  refine enters_bind (hasTraffic_ask rfl) ?_ ?_
  · rintro _ cached ⟨rfl, -, hhonest⟩
    cases cached with
    | some s =>
      refine (noTraffic_count _).hasTraffic_bind (fun _ => enters_done ?_) fun fault => ?_
      · refine hsingle fun s' hs' => ?_
        cases hs'
        exact hhonest
      · exact hsingle nofun
    | none =>
      refine enters_bind (hasTraffic_readThrough rate space name) ?_ ?_
      · rintro es found ⟨hreads, hfound⟩
        cases found with
        | none =>
          exact enters_done (.of_missed [] hreads (by simp) nofun)
        | some raw =>
          obtain ⟨haddress, hmem⟩ := hfound raw rfl
          refine (hasTraffic_takeIn raw).imp ?_
          rintro puts r ⟨hputs, hr⟩
          refine .of_missed puts hreads (fun x hx => ?_) fun s hs => ?_
          · obtain ⟨s, hput, hread⟩ := hputs x hx
            exact ⟨s, hput, _, hmem, .read hread⟩
          · obtain ⟨s', hs', hread⟩ := hr _ hs
            cases hs'
            rw [Secret.key_of_ofWire hread]
            exact haddress.trans hkey
      · rintro es fault ⟨hreads, -⟩
        have hmissed : LooksUp key (⟨.cacheGet key, .ok none⟩ :: (es ++ []))
            (.error fault : Except (Fault τ) (Option Secret)) :=
          .of_missed [] hreads (by simp) nofun
        rw [List.append_nil] at hmissed
        exact hmissed
  · rintro _ fault ⟨rfl, -⟩
    exact hsingle nofun

/-! ## Writing -/

/-- The traffic of a write.  If the API has not answered it, what was cached under its key is
dropped. -/
structure WritesOut (secret : Secret) (es : List (Exchange (requests τ) (Fault τ)))
    (r : Except (Fault τ) Secret) : Prop where
  supplied : IsSupplied es
  /-- If anything is dropped, it is under the key of the secret, and nothing was written. -/
  drops : ∀ x ∈ es, ∀ key, x.request.Drops key →
    secret.key = .ok key ∧ ∀ y ∈ es, hasWritten y = false
  /-- If nothing was written, the write has failed, and nothing is cached under the key. -/
  fails : (∀ x ∈ es, hasWritten x = false) →
    (∃ fault, r = .error fault) ∧ ∀ key, secret.key = .ok key → Vacates key es

/-- The secret can be sent to the API: its data and its sections have a form on the wire. -/
def IsSendable (secret : Secret) : Prop := ∃ body, secret.toWire = .ok body

/-- A write of the secret is asked for, if it can be sent at all, and returns what was answered. -/
inductive CallsFor (secret : Secret) : List (Exchange (requests τ) (Fault τ)) →
    Except (Fault τ) (Option WireSecret) → Prop where
  | unmade (fault : Fault τ) : CallsFor secret [] (.error fault)
  | created {body : WireSecret} (hbody : secret.toWire = .ok body)
    (r : Except (Fault τ) (Option WireSecret)) :
    CallsFor secret [⟨.create secret.space (WireSecret.unversioned body), r⟩] r
  | replaced {body : WireSecret} (hbody : secret.toWire = .ok body)
    (r : Except (Fault τ) (Option WireSecret)) :
    CallsFor secret [⟨.replace secret.space secret.name body, r⟩] r

/-- What counts as stored by a write that was answered.  Without a body in the answer it is what was
sent. -/
def IsStored (secret : Secret) : Option WireSecret → Secret → Prop
  | some w, s => Secret.ofWire w = .ok s
  | none, s => s = secret

section

variable {secret : Secret} {es : List (Exchange (requests τ) (Fault τ))}

omit [Time τ]

theorem CallsFor.exists_written {raw : Option WireSecret} (h : CallsFor secret es (.ok raw)) :
    ∃ x, es = [x] ∧ x.request.IsCall ∧ hasWritten x = true ∧
      ∀ s, IsStored secret raw s → Supplies x s := by
  cases h with
  | created hbody =>
    refine ⟨_, rfl, trivial, rfl, fun s hs => ?_⟩
    cases raw with
    | none =>
      obtain rfl : s = secret := hs
      exact .createdAsSent hbody
    | some w => exact .created hs
  | replaced hbody =>
    refine ⟨_, rfl, trivial, rfl, fun s hs => ?_⟩
    cases raw with
    | none =>
      obtain rfl : s = secret := hs
      exact .replacedAsSent hbody
    | some w => exact .replaced hs

theorem CallsFor.not_written {fault : Fault τ} (h : CallsFor secret es (.error fault)) :
    ∀ x ∈ es, x.request.IsCall ∧ hasWritten x = false := by
  cases h with
  | unmade => simp
  | created hbody => simp [Request.IsCall, hasWritten]
  | replaced hbody => simp [Request.IsCall, hasWritten]

theorem not_drops_of_isCall {q : Request τ} (h : q.IsCall) (key : Key) : ¬ q.Drops key := by
  cases q <;> first | exact h.elim | exact id

theorem ne_cachePut_of_isCall {q : Request τ} (h : q.IsCall) (s : Secret) : q ≠ .cachePut s := by
  rintro rfl
  exact h

/-- After a write that was answered, what counts as stored is cached. -/
theorem WritesOut.of_made {raw : Option WireSecret}
    {puts : List (Exchange (requests τ) (Fault τ))} (h : CallsFor secret es (.ok raw))
    (hputs : ∀ x ∈ puts, ∃ s, x.request = .cachePut s ∧ IsStored secret raw s)
    (r : Except (Fault τ) Secret) : WritesOut secret (es ++ puts) r := by
  obtain ⟨call, rfl, hcall, hwritten, hsupplies⟩ := h.exists_written
  have hmem : call ∈ [call] ++ puts := by simp
  refine ⟨fun x hx s hput => ?_, fun x hx key hdrops => ?_, fun hnone => ?_⟩
  · rcases List.mem_append.1 hx with hx | hx
    · obtain rfl := List.mem_singleton.1 hx
      exact absurd hput (ne_cachePut_of_isCall hcall s)
    · obtain ⟨s', hput', hstored⟩ := hputs x hx
      obtain rfl : s' = s := by simpa [hput'] using hput
      exact ⟨call, hmem, hsupplies s' hstored⟩
  · rcases List.mem_append.1 hx with hx | hx
    · obtain rfl := List.mem_singleton.1 hx
      exact absurd hdrops (not_drops_of_isCall hcall key)
    · obtain ⟨s', hput', -⟩ := hputs x hx
      rw [hput'] at hdrops
      exact hdrops.elim
  · rw [hnone call hmem] at hwritten
    cases hwritten

/-- A write that was not answered is followed by dropping what is cached under its key. -/
theorem WritesOut.of_failed (hes : ∀ x ∈ es, x.request.IsCall ∧ hasWritten x = false)
    (a : Except (Fault τ) Unit) (fault : Fault τ) :
    WritesOut secret (es ++ [⟨.cacheForget secret.space secret.name, a⟩]) (.error fault) := by
  have hnone : ∀ x ∈ es ++ [⟨.cacheForget secret.space secret.name, a⟩], hasWritten x = false := by
    intro x hx
    rcases List.mem_append.1 hx with hx | hx
    · exact (hes x hx).2
    · rw [List.mem_singleton.1 hx]
      rfl
  refine ⟨fun x hx s hput => ?_, fun x hx key hdrops => ⟨?_, hnone⟩, fun _ => ⟨⟨fault, rfl⟩, ?_⟩⟩
  · rcases List.mem_append.1 hx with hx | hx
    · exact absurd hput (ne_cachePut_of_isCall (hes x hx).1 s)
    · rw [List.mem_singleton.1 hx] at hput
      cases hput
  · rcases List.mem_append.1 hx with hx | hx
    · exact absurd hdrops (not_drops_of_isCall (hes x hx).1 key)
    · rw [List.mem_singleton.1 hx] at hdrops
      exact hdrops
  · intro key hkey
    have hdrops : Request.Drops key (.cacheForget secret.space secret.name : Request τ) := hkey
    exact (vacates_cons hdrops (by simp)).append_left es

end

theorem hasTraffic_concludeWrite (operation : Operation) (secret : Secret)
    (raw : Option WireSecret) :
    HasTraffic (concludeWrite (τ := τ) operation secret raw) fun es _ =>
      ∀ x ∈ es, ∃ s, x.request = .cachePut s ∧ IsStored secret raw s := by
  have hcaches : ∀ stored : Secret, IsStored secret raw stored → HasTraffic (do
      ask (.cachePut stored)
      return stored : Task τ Secret) fun es _ =>
        ∀ x ∈ es, ∃ s, x.request = .cachePut s ∧ IsStored secret raw s := by
    refine fun stored hstored => enters_bind (hasTraffic_ask rfl) ?_ ?_
    · rintro _ _ ⟨rfl, -⟩
      exact enters_done (by simp [hstored])
    · rintro _ _ ⟨rfl, -⟩
      simp [hstored]
  refine (noTraffic_count _).hasTraffic_bind (fun _ => ?_) fun _ => by simp
  refine (noTraffic_count _).hasTraffic_bind (fun _ => ?_) fun _ => by simp
  cases raw with
  | none => exact hcaches secret rfl
  | some w => exact enters_checked_bind (fun stored => hcaches stored) fun _ => by simp

theorem hasTraffic_writeFailure (operation : Operation) (secret : Secret) (fault : Fault τ) :
    HasTraffic (writeFailure operation secret fault) fun es r => ∃ a e,
      es = [⟨.cacheForget secret.space secret.name, a⟩] ∧ r = .error e := by
  refine enters_bind (hasTraffic_measure _) ?_ ?_
  · rintro _ _ ⟨rfl, -⟩
    refine enters_bind (hasTraffic_measure _) ?_ ?_
    · rintro _ _ ⟨rfl, -⟩
      refine enters_bind (hasTraffic_ask rfl) ?_ ?_
      · rintro _ done ⟨rfl, -⟩
        exact enters_done ⟨_, fault, rfl, rfl⟩
      · rintro _ e ⟨rfl, -⟩
        exact ⟨_, e, rfl, rfl⟩
    · rintro _ _ ⟨-, ⟨⟩⟩
  · rintro _ _ ⟨-, ⟨⟩⟩

/-- A call was answered, or the write has failed. -/
def Attempted (secret : Secret) (es : List (Exchange (requests τ) (Fault τ))) :
    Except (Fault τ) (Option WireSecret) → Prop
  | .ok raw => CallsFor secret es (.ok raw)
  | .error fault => WritesOut secret es (.error fault)

theorem hasTraffic_write (rate : τ) (operation : Operation) {secret : Secret}
    {call : Task τ (Option WireSecret)} (hcall : HasTraffic call (CallsFor secret)) :
    HasTraffic (write rate operation secret call) (WritesOut secret) := by
  have hspaced : HasTraffic (spaced rate call) (CallsFor secret) := by
    rw [spaced]
    exact (noTraffic_takeTurn rate).hasTraffic_bind (fun _ => hcall) fun fault => .unmade fault
  have hrecovered : HasTraffic ((spaced rate call).recover (writeFailure operation secret))
      (Attempted secret) := by
    refine enters_recover hspaced (fun es raw h => h) fun es fault h => ?_
    refine (hasTraffic_writeFailure operation secret fault).imp ?_
    rintro _ _ ⟨a, e, rfl, rfl⟩
    exact .of_failed h.not_written a e
  refine enters_bind hasTraffic_now ?_ ?_
  · rintro _ start ⟨rfl, -⟩
    refine enters_bind (P := Attempted secret) (enters_always hrecovered ?_) ?_ ?_
    · intro es r hes
      refine (hasTraffic_measureSince start _).imp ?_
      rintro _ _ ⟨rfl, rfl⟩
      rw [List.append_nil]
      exact ⟨rfl, hes⟩
    · intro es raw hes
      exact (hasTraffic_concludeWrite operation secret raw).imp fun puts r hputs =>
        .of_made hes hputs r
    · exact fun es fault hes => hes
  · rintro _ _ ⟨-, _, ⟨⟩⟩

/-- A secret that cannot be sent is not created, and this is found out before the write is begun, so
nothing is dropped then. -/
theorem hasTraffic_create (rate : τ) (secret : Secret) : HasTraffic (create rate secret) fun es r =>
    IsSendable secret ∧ WritesOut secret es r ∨ ¬ IsSendable secret ∧ es = [] := by
  rw [create]
  cases hbody : secret.toWire with
  | error reason =>
    have hnone : ¬ IsSendable secret := fun ⟨body, h⟩ => by simp [hbody] at h
    exact enters_done (.inr ⟨hnone, rfl⟩)
  | ok body =>
    refine (hasTraffic_write rate .create ((hasTraffic_ask rfl).imp ?_)).imp fun _ _ h =>
      .inl ⟨⟨body, hbody⟩, h⟩
    rintro _ r ⟨rfl, -⟩
    exact .created hbody r

theorem hasTraffic_update (rate : τ) (secret : Secret) :
    HasTraffic (update rate secret) (WritesOut secret) := by
  refine hasTraffic_write rate .update ?_
  refine enters_checked_bind (fun body hbody => (hasTraffic_ask rfl).imp ?_) fun fault =>
    .unmade fault
  rintro _ r ⟨rfl, -⟩
  exact .replaced hbody r

end SecretMirror.Operator
