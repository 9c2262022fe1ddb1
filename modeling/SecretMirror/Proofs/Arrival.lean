import SecretMirror.Proofs.Arrival.VisibleState
import SecretMirror.Proofs.WatchEvents

/-!
# By which way a secret comes in

A secret comes into the cache in one of two ways (`Secret.ComesFrom`): a watch event shows it, in a
body that is a plain object, or the API client reads it, as a record.  The two readers are written
separately, one after the keys of objects and one after the fields of records.

They agree on all objects that have metadata, whatever the shapes of the sections, and where they
fail they fail for the same reason.  So a look-up that reads what an event has shown leaves the
cache as the event does, but for the time (`shows_or_fails`).  And a synchronisation that finds its
secrets in the cache comes to the same decision and writes the same body, whichever way each of them
came in (`arrivals_agree`).  The entries may have been cached at different times, so this is said of
runs in which the same look-ups find their secret: one whose entry is too old reads it again.
-/

namespace SecretMirror

open Operator
open Program hiding bind ask

variable {τ α : Type}

/-! ## Two ways in -/

/-- The value is an object whose metadata is an object, as that of every stored secret is.  Nothing
is said of its other sections. -/
def Value.HasMetadata (body : Value) : Prop :=
  ∃ fields about : Fields Value, body = .object fields ∧
    fields.get? "metadata" = some (.object about)

/-- The secret was shown by a watch event with this body (`from_dict`), or read from the record that
holds the same values (`from_k8s`). -/
inductive Secret.ComesFrom (body : Value) (secret : Secret) : Prop where
  | shown (h : Secret.ofBody body = .ok secret)
  | read (h : Secret.ofWire (WireSecret.ofValue body) = .ok secret)

/-- Both readers make the same of an object with metadata, be it a secret or a reason to fail.
Without metadata they would differ in what counts as missing. -/
theorem Value.HasMetadata.ofBody_eq {body : Value} (h : body.HasMetadata) :
    Secret.ofBody body = Secret.ofWire (WireSecret.ofValue body) := by
  obtain ⟨fields, about, rfl, habout⟩ := h
  have hentry : (Secret.entry fields "metadata").fields? = some about := by
    rw [Secret.entry, habout]
    rfl
  exact Secret.ofBody_eq_ofWire rfl hentry

/-- It makes no difference by which way a secret comes in. -/
theorem Secret.ComesFrom.eq {body : Value} (hbody : body.HasMetadata) {s s' : Secret}
    (h : Secret.ComesFrom body s) (h' : Secret.ComesFrom body s') : s = s' := by
  have hread : ∀ {s : Secret}, Secret.ComesFrom body s →
      Secret.ofWire (WireSecret.ofValue body) = .ok s := by
    intro s h
    cases h with
    | shown h => exact hbody.ofBody_eq.symm.trans h
    | read h => exact h
  exact Except.ok.inj ((hread h).symm.trans (hread h'))

/-- The entries hold one version of a secret: the same one, or what came from one object by
whichever way.  Nothing is said of when they were stored. -/
def Entry.SameVersion (e e' : Entry τ) : Prop :=
  e.secret = e'.secret ∨ ∃ body, Value.HasMetadata body ∧
    Secret.ComesFrom body e.secret ∧ Secret.ComesFrom body e'.secret

theorem Entry.SameVersion.secret_eq {e e' : Entry τ} (h : e.SameVersion e') :
    e.secret = e'.secret := by
  rcases h with h | ⟨body, hbody, hcomes, hcomes'⟩
  · exact h
  · exact hcomes.eq hbody hcomes'

/-! ## What an event and a read leave -/

namespace Cluster

/-- The caches hold the same versions under the same keys, and the clusters agree in the server and
in the faults that calls meet.  Clocks, ages and all that was recorded may differ. -/
structure HoldsSameVersions (c c' : Cluster τ) : Prop where
  cache : ∀ key, Option.Rel Entry.SameVersion (c.cache.find? key) (c'.cache.find? key)
  server : c.server = c'.server
  disturbances : c.disturbances = c'.disturbances
  answersWrites : c.answersWrites = c'.answersWrites
  eventFault : c.eventFault = c'.eventFault

theorem HoldsSameVersions.shows {c c' : Cluster τ} (h : c.HoldsSameVersions c') :
    c.ShowsAs c' := by
  refine ⟨fun key => ?_, h.server, h.disturbances, h.answersWrites, h.eventFault⟩
  have hentries := h.cache key
  unfold Cache.secret?
  revert hentries
  generalize c.cache.find? key = e?
  generalize c'.cache.find? key = e?'
  rintro (hsame | -)
  · exact congrArg some hsame.secret_eq
  · rfl

variable [Time τ] (timing : Resync.Timing τ)

/-- A look-up reads this object through the API: nothing that could be handed out is cached, the
server has it, and the call meets no fault. -/
structure Serves (c : Cluster τ) (key : Key) (name body : Value) : Prop where
  missed : (c.cache.get key c.clock).1 = none
  stored : c.server.objects key = some (WireSecret.ofValue body)
  undisturbed : (c.disturbances.meet .read name).1 = none

/-- The cluster after a look-up in the cache, which may have lost an entry that was too old. -/
def looked (c : Cluster τ) (key : Key) : Cluster τ :=
  { c with cache := (c.cache.get key c.clock).2 }

/-- Where nothing was handed out, it makes no difference for what is put there. -/
theorem showsAs_put_of_miss {c d : Cluster τ} {key : Key}
    (hmissed : (c.cache.get key c.clock).1 = none) (hd : (c.looked key).ShowsAs d) (s : Secret)
    (now now' : τ) :
    ShowsAs { c with cache := c.cache.put key s now }
      { d with cache := d.cache.put key s now' } := by
  refine ⟨fun other => ?_, hd.server, hd.disturbances, hd.answersWrites, hd.eventFault⟩
  have hshown : (c.looked key).cache.secret? other = d.cache.secret? other := hd.cache other
  rw [looked, Cache.secret?_get_of_miss hmissed] at hshown
  rw [Cache.secret?_put, Cache.secret?_put, ← hshown]
  split <;> rfl

/-- A call whose turn has come finds the cluster as it was, but for the time. -/
theorem exists_gives_takeTurn {rate : τ} (hrate : Time.isZero rate = false) (c : Cluster τ) :
    ∃ d, (takeTurn rate).Gives (handle timing) c () d ∧ c.ShowsAs d := by
  have hresult := run_takeTurn timing rate c
  rw [RateLimit.spacing, hrate] at hresult
  exact ⟨_, Prod.ext hresult rfl, showsAs_of_aside (isAside_takeTurn rate) c⟩

theorem read_of_serves {c : Cluster τ} {key : Key} {space name body : Value}
    (hkey : Key.ofValues space name = .ok key)
    (hstored : c.server.objects key = some (WireSecret.ofValue body))
    (hundisturbed : (c.disturbances.meet .read name).1 = none) :
    ∃ d, c.read space name = (.ok (WireSecret.ofValue body), d) ∧ c.ShowsAs d := by
  have hplan : (c.disturbances.meet .read name).2 = c.disturbances := by
    unfold Disturbances.meet at hundisturbed ⊢
    split
    · rfl
    · next d hd =>
      rw [hd] at hundisturbed
      dsimp only at hundisturbed ⊢
      split at hundisturbed
      · cases hundisturbed
      · next hconcerns => rw [if_neg hconcerns]
  refine ⟨(c.meet { verb := .read, space := space, name := name }).2, ?_, ?_⟩
  · unfold Cluster.read
    simp only [meet, hundisturbed, hkey]
    simp [advance, Server.read, hstored, Except.mapError]
  · exact ⟨fun _ => rfl, rfl, hplan.symm, rfl, rfl⟩

/-- The read through the API brings the object. -/
theorem exists_gives_readThrough {rate : τ} (hrate : Time.isZero rate = false) {c : Cluster τ}
    {key : Key} {space name body : Value} (hkey : Key.ofValues space name = .ok key)
    (hstored : c.server.objects key = some (WireSecret.ofValue body))
    (hundisturbed : (c.disturbances.meet .read name).1 = none) :
    ∃ d, (readThrough rate space name).Gives (handle timing) c (some (WireSecret.ofValue body)) d ∧
      c.ShowsAs d := by
  obtain ⟨d, hturn, hd⟩ := exists_gives_takeTurn timing hrate c
  obtain ⟨e, hread, he⟩ := read_of_serves hkey (hd.server ▸ hstored)
    (hd.disturbances ▸ hundisturbed)
  have hcalled : (spaced rate (Operator.ask (.read space name)) >>= fun raw =>
      pure (some raw)).Gives (handle timing) c (some (WireSecret.ofValue body)) e := by
    rw [spaced]
    exact gives_bind (gives_bind hturn (gives_request hread)) (gives_pure _ _)
  refine ⟨_, gives_bind (gives_request rfl) (gives_always (gives_recover hcalled) rfl), ?_⟩
  exact hd.trans (he.trans ⟨fun _ => rfl, rfl, rfl, rfl, rfl⟩)

/-- A look-up that misses the cache goes on with what it has read. -/
theorem run_lookUp_of_serves {rate : τ} (hrate : Time.isZero rate = false) {c : Cluster τ}
    {key : Key} {space name body : Value} (hkey : Key.ofValues space name = .ok key)
    (hserves : c.Serves key name body) :
    ∃ d, (c.looked key).ShowsAs d ∧ (lookUp rate space name).run (handle timing) c =
      (takeIn (WireSecret.ofValue body)).run (handle timing) d := by
  obtain ⟨d, hread, hd⟩ := exists_gives_readThrough timing (c := c.looked key) hrate hkey
    hserves.stored hserves.undisturbed
  have hgot : (Operator.ask (.cacheGet key)).Gives (handle timing) c none (c.looked key) := by
    refine gives_request ?_
    show (Except.ok (c.cache.get key c.clock).1, c.looked key) = _
    rw [hserves.missed]
  have hchecked : (checked (Key.ofValues space name)).Gives (handle timing) c key c := by
    rw [hkey]
    rfl
  refine ⟨d, hd, ?_⟩
  rw [lookUp, run_bind, hchecked]
  dsimp only [resume_ok]
  rw [run_bind, hgot]
  dsimp only [resume_ok]
  rw [run_bind, hread]
  rfl

/-- An event that shows an object, and a look-up that reads it, cache the same secret and leave the
same to be seen, or both fail for the same reason.  They differ in the time that the read takes. -/
theorem shows_or_fails {rate : τ} (hrate : Time.isZero rate = false) {c : Cluster τ} {key : Key}
    {space name body : Value} (hkey : Key.ofValues space name = .ok key)
    (haddress : WireSecret.HasAddress (WireSecret.ofValue body) space name)
    (hbody : body.HasMetadata) (hserves : c.Serves key name body) {eventType : Value}
    (hevent : eventType.text? ≠ some "DELETED") :
    (∃ reason, (observe eventType body name space).run (handle timing) c =
        (.error (.malformed reason), c) ∧
      ((lookUp rate space name).run (handle timing) c).1 = .error (.malformed reason)) ∨
    ∃ secret d d', (observe eventType body name space).Gives (handle timing) c () d ∧
      (lookUp rate space name).Gives (handle timing) c (some secret) d' ∧
      d.cache.secret? key = some secret ∧ d.ShowsAs d' := by
  obtain ⟨e, he, hlookUp⟩ := run_lookUp_of_serves timing hrate hkey hserves
  have hobserve := run_observe timing eventType body name space c
  rw [Cache.witnessed, if_neg hevent, hbody.ofBody_eq] at hobserve
  -- Both ways read the same record, so they fail together or cache the same secret.
  cases hread : Secret.ofWire (WireSecret.ofValue body) with
  | error reason =>
    left
    rw [hread] at hobserve
    refine ⟨reason, hobserve, ?_⟩
    rw [hlookUp, takeIn, hread]
    rfl
  | ok secret =>
    right
    have hown : secret.key = .ok key := by
      rw [Secret.key_of_ofWire hread]
      exact haddress.trans hkey
    have hput : ∀ (cache : Cache τ) (now : τ),
        cache.putOwn secret now = .ok (cache.put key secret now) := fun cache now => by
      rw [Cache.putOwn, hown]
      rfl
    have hcaches : ∀ d : Cluster τ, (ask (.cachePut secret)).Gives (handle timing) d ()
        { d with cache := d.cache.put key secret d.clock } := fun d =>
      gives_request (congrArg d.changeCache (hput d.cache d.clock))
    have hchecked : ∀ d : Cluster τ, (checked (Secret.ofWire (WireSecret.ofValue body))).Gives
        (handle timing) d secret d := fun d => by
      rw [hread]
      rfl
    have htaken : (takeIn (WireSecret.ofValue body)).Gives (handle timing) e (some secret) _ :=
      gives_bind (gives_request rfl) (gives_bind (hchecked _) (gives_bind (hcaches _) rfl))
    refine ⟨secret, { c with cache := c.cache.put key secret c.clock }, _, ?_,
      hlookUp.trans htaken, ?_, ?_⟩
    · rw [hread] at hobserve
      exact hobserve.trans (congrArg c.changeCache (hput c.cache c.clock))
    · rw [Cache.secret?_put, if_pos rfl]
    · exact (showsAs_put_of_miss hserves.missed he secret _ _).trans
        ⟨fun _ => rfl, rfl, rfl, rfl, rfl⟩

/-- It makes no difference by which way a secret comes in.  A watch event and a read of one object,
whose metadata is an object, give the same secret or fail for the same reason; so an event that
shows the object and a look-up that reads it leave the same to be seen.  And wherever the caches
hold the same versions, whichever way each came in and whenever, a synchronisation comes to the same
decision or fault by the same traffic, the bodies of its writes among them, as long as the same
look-ups find their secret in the cache. -/
theorem arrivals_agree (rate : τ) :
    (∀ body : Value, body.HasMetadata →
      Secret.ofBody body = Secret.ofWire (WireSecret.ofValue body)) ∧
    (∀ (c : Cluster τ) (key : Key) (space name body eventType : Value),
      Time.isZero rate = false → Key.ofValues space name = .ok key → body.HasMetadata →
      WireSecret.HasAddress (WireSecret.ofValue body) space name → c.Serves key name body →
      eventType.text? ≠ some "DELETED" →
      (∃ reason, (observe eventType body name space).run (handle timing) c =
          (.error (.malformed reason), c) ∧
        ((lookUp rate space name).run (handle timing) c).1 = .error (.malformed reason)) ∨
      ∃ secret d d', (observe eventType body name space).Gives (handle timing) c () d ∧
        (lookUp rate space name).Gives (handle timing) c (some secret) d' ∧
        d.cache.secret? key = some secret ∧ d.ShowsAs d') ∧
    ∀ (c c' : Cluster τ) (places : Sync.Places), c.HoldsSameVersions c' →
      hits timing (sync rate places) c = hits timing (sync rate places) c' →
      ComesToSame timing (sync rate places) (sync rate places) c c' := by
  refine ⟨fun body hbody => hbody.ofBody_eq, ?_, ?_⟩
  · intro c key space name body eventType hrate hkey hbody haddress hserves hevent
    exact shows_or_fails timing hrate hkey haddress hbody hserves hevent
  · intro c c' places hversions hhits
    exact (runsAlike_sync rate places).comesToSame hversions.shows hhits

namespace Example

/-- A cluster in which the canonical secret is stored, and nothing is cached. -/
def outset : Cluster ℚ :=
  { Cluster.new 1000 30 with
    server := {
      objects := fun key => if key = .source then some SecretMirror.Example.canonical else none
      version := 1 } }

/-- The canonical secret is cached there since an event has shown it. -/
def seeded : Cluster ℚ :=
  { outset with cache := outset.cache.put .source SecretMirror.Example.source 990 }

/-- The canonical secret is cached there since it was read, which has taken its time. -/
def filled : Cluster ℚ :=
  { outset with
    clock := 1002
    lastCall := 1001
    cache := outset.cache.put .source SecretMirror.Example.source 1002 }

theorem holdsSameVersions : seeded.HoldsSameVersions filled := by
  refine ⟨fun key => ?_, rfl, rfl, rfl, rfl⟩
  have hbody : Value.HasMetadata SecretMirror.Example.canonical.toValue := ⟨_, _, rfl, rfl⟩
  rw [seeded, filled, Cache.find?_put, Cache.find?_put]
  by_cases hkey : key = .source
  · rw [if_pos hkey, if_pos hkey]
    exact .some (.inr ⟨_, hbody, .shown rfl, .read rfl⟩)
  · rw [if_neg hkey, if_neg hkey]
    exact .none

theorem serves : outset.Serves .source (.text Names.source)
    SecretMirror.Example.canonical.toValue := ⟨rfl, rfl, rfl⟩

theorem hits_seeded : hits ⟨300, 30⟩ (sync 8 {}) seeded = [true, false] := by
  with_unfolding_all rfl

theorem hits_filled : hits ⟨300, 30⟩ (sync 8 {}) filled = [true, false] := by
  with_unfolding_all rfl

theorem run_seeded : ∃ mirror, SecretMirror.Example.source.mirror = .ok mirror ∧
    ((sync 8 {}).run (handle ⟨300, 30⟩) seeded).1 = .ok (.create mirror) :=
  ⟨_, rfl, by with_unfolding_all rfl⟩

end Example

/-- The canonical secret is cached alike by an event and by a look-up, and its mirror is created
after a look-up as after an event. -/
theorem arrivals_agree_canonical :
    (∃ d d', (observe (.text "MODIFIED") SecretMirror.Example.canonical.toValue
          (.text Names.source) (.text Names.configNamespace)).Gives (handle ⟨300, 30⟩)
          Example.outset () d ∧
        (lookUp 8 (.text Names.configNamespace) (.text Names.source)).Gives (handle ⟨300, 30⟩)
          Example.outset (some SecretMirror.Example.source) d' ∧ d.ShowsAs d') ∧
    ∃ mirror, SecretMirror.Example.source.mirror = .ok mirror ∧
      ((sync 8 {}).run (handle ⟨300, 30⟩) Example.filled).1 = .ok (.create mirror) := by
  have hmetadata : Value.HasMetadata SecretMirror.Example.canonical.toValue := ⟨_, _, rfl, rfl⟩
  obtain ⟨hreaders, hways, hsync⟩ := arrivals_agree ⟨300, 30⟩ (8 : ℚ)
  constructor
  · have hshown : Secret.ofBody SecretMirror.Example.canonical.toValue =
        .ok SecretMirror.Example.source := hreaders _ hmetadata
    have hobserve : (observe (.text "MODIFIED") SecretMirror.Example.canonical.toValue
        (.text Names.source) (.text Names.configNamespace)).run (handle ⟨300, 30⟩)
        Example.outset = (.ok (), { Example.outset with
          cache := Example.outset.cache.put .source SecretMirror.Example.source 1000 }) := by
      rw [run_observe, Cache.witnessed, if_neg (by simp [Value.text?]), hshown]
      rfl
    rcases hways Example.outset .source (.text Names.configNamespace) (.text Names.source) _
      (.text "MODIFIED") rfl rfl hmetadata rfl Example.serves (by simp [Value.text?])
      with ⟨reason, hraised, -⟩ | ⟨secret, d, d', hevent, hread, hcached, hshows⟩
    · rw [hobserve] at hraised
      cases hraised
    · obtain rfl : _ = d := congrArg Prod.snd (hobserve.symm.trans hevent)
      have hfound : some SecretMirror.Example.source = some secret := hcached
      exact ⟨_, d', hevent, by rw [Option.some.inj hfound]; exact hread, hshows⟩
  · have hsame := hsync Example.seeded Example.filled {} Example.holdsSameVersions
      (Example.hits_seeded.trans Example.hits_filled.symm)
    obtain ⟨mirror, hmirror, hcreated⟩ := Example.run_seeded
    exact ⟨mirror, hmirror, hsame.result.symm.trans hcreated⟩

end Cluster

end SecretMirror
