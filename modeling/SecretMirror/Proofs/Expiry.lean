import Mathlib.Data.List.Chain
import SecretMirror.Proofs.CacheView
import SecretMirror.Proofs.ExactTime

/-!
# What a cache hands out

A cache drops an entry that is too old when it is asked for, so what is stored depends on what was
asked.  What is handed out does not.  A `Register` is a map from keys to entries that drops nothing
on account of its age, and is looked at without being changed.

The cache and the register are put to the same uses.  At any time an entry of the register is in the
cache too, or it is already too old and is gone there (`Tracks`).  A use keeps this, as long as the
clock does not go back, since an entry that is too old stays so (`Tracks.perform`), and with it
every list of uses does.  The register holds for each key what was put last under it, unless it was
forgotten or all was cleared since (`mem_register_iff`).  So this is what the cache hands out, while
it is not too old (`get_after_uses`).
-/

namespace SecretMirror.Cache

variable {τ : Type}

/-! ## Uses -/

/-- A call of one of the methods of the cache. -/
inductive Use where
  /-- To store a secret under its own key. -/
  | put (secret : Secret)
  /-- To get the secret with a namespace and a name. -/
  | get (space name : Value)
  /-- To drop the secret with a namespace and a name. -/
  | forget (space name : Value)
  /-- To drop everything. -/
  | clear

namespace Use

/-- The use may change what is stored under a key.  One with a malformed key changes nothing, since
it fails before the cache is reached. -/
def Touches (key : Key) : Use → Prop
  | .put secret => secret.key = .ok key
  | .get .. => False
  | .forget space name => Key.ofValues space name = .ok key
  | .clear => True

instance (key : Key) : DecidablePred (Touches key)
  | .put secret => inferInstanceAs (Decidable (secret.key = .ok key))
  | .get .. => inferInstanceAs (Decidable False)
  | .forget space name => inferInstanceAs (Decidable (Key.ofValues space name = .ok key))
  | .clear => inferInstanceAs (Decidable True)

/-- The cache that an operation leaves behind, which is the one before if the operation fails. -/
def orElse (c : Cache τ) : Except Malformed (Cache τ) → Cache τ
  | .ok cache => cache
  | .error _ => c

/-- The answer to a use at a time, and what becomes of the cache.  Only a get answers with a secret,
and only a malformed key makes a use fail. -/
def perform [Time τ] (now : τ) (c : Cache τ) : Use → Except Malformed (Option Secret) × Cache τ
  | .put secret =>
    ((c.putOwn secret now).map fun _ => none, orElse c (c.putOwn secret now))
  | .get space name =>
    match Key.ofValues space name with
    | .ok key => (.ok (c.get key now).1, (c.get key now).2)
    | .error m => (.error m, c)
  | .forget space name =>
    ((c.forgetValues space name).map fun _ => none, orElse c (c.forgetValues space name))
  | .clear => (.ok none, c.clear)

end Use

structure TimedUse (τ : Type) where
  time : τ
  use : Use

/-- The cache after some uses, in their order. -/
def afterUses [Time τ] (c : Cache τ) (uses : List (TimedUse τ)) : Cache τ :=
  uses.foldl (fun c u => (u.use.perform u.time c).2) c

/-- The clock does not go back from use to use, nor from the last one to `now`.  It may stand
still. -/
def Forward [Time τ] (uses : List (TimedUse τ)) (now : τ) : Prop :=
  (uses.map TimedUse.time ++ [now]).IsChain (· ≤ ·)

instance [Time τ] (uses : List (TimedUse τ)) (now : τ) : Decidable (Forward uses now) :=
  inferInstanceAs (Decidable ((uses.map TimedUse.time ++ [now]).IsChain (· ≤ ·)))

/-! ## The register -/

/-- Entries under their keys, whatever their age.  This is the cache without its eviction. -/
abbrev Register (τ : Type) := Key → Option (Entry τ)

/-- What becomes of a register when a cache is used.  A get leaves it as it is. -/
def Register.perform (r : Register τ) (u : TimedUse τ) : Register τ := fun key =>
  match u.use with
  | .put secret => if secret.key = .ok key then some ⟨secret, u.time⟩ else r key
  | .get .. => r key
  | .forget space name => if Key.ofValues space name = .ok key then none else r key
  | .clear => none

/-- The register after some uses, beginning with nothing. -/
def register (uses : List (TimedUse τ)) : Register τ :=
  uses.foldl Register.perform fun _ => none

/-- The entry was put under the key at the time it bears, and nothing has touched the key since.
This says what the register holds without going through it. -/
def IsLatest (key : Key) (uses : List (TimedUse τ)) (e : Entry τ) : Prop :=
  e.secret.key = .ok key ∧ ∃ before after,
    uses = before ++ ⟨e.storedAt, .put e.secret⟩ :: after ∧ ∀ u ∈ after, ¬ u.use.Touches key

theorem register_concat (uses : List (TimedUse τ)) (u : TimedUse τ) :
    register (uses ++ [u]) = (register uses).perform u := by
  rw [register, List.foldl_concat]
  rfl

theorem Register.perform_of_not_touches {r : Register τ} {u : TimedUse τ} {key : Key}
    (h : ¬ u.use.Touches key) : r.perform u key = r key := by
  obtain ⟨time, use⟩ := u
  cases use with
  | put secret => exact if_neg h
  | get space name => rfl
  | forget space name => exact if_neg h
  | clear => exact absurd trivial h

/-- After a use that touches a key the register holds there what was put in it. -/
theorem Register.perform_eq_some_iff {r : Register τ} {u : TimedUse τ} {key : Key} {e : Entry τ}
    (h : u.use.Touches key) : r.perform u key = some e ↔ u = ⟨e.storedAt, .put e.secret⟩ := by
  obtain ⟨time, use⟩ := u
  obtain ⟨secret, storedAt⟩ := e
  cases use with
  | put other =>
    have hput : r.perform ⟨time, .put other⟩ key = some ⟨other, time⟩ := if_pos h
    rw [hput]
    simp [and_comm]
  | get space name => exact h.elim
  | forget space name =>
    have hgone : r.perform ⟨time, .forget space name⟩ key = none := if_pos h
    simp [hgone]
  | clear => simp [Register.perform]

theorem isLatest_concat_iff {key : Key} {uses : List (TimedUse τ)} {u : TimedUse τ} {e : Entry τ} :
    IsLatest key (uses ++ [u]) e ↔
      if u.use.Touches key then u = ⟨e.storedAt, .put e.secret⟩ else IsLatest key uses e := by
  by_cases h : u.use.Touches key
  · rw [if_pos h]
    constructor
    · rintro ⟨-, before, after, hsplit, huntouched⟩
      rcases List.eq_nil_or_concat' after with rfl | ⟨rest, last, rfl⟩
      · exact List.singleton_inj.1 (List.append_inj' hsplit rfl).2
      · rw [← List.cons_append, ← List.append_assoc] at hsplit
        obtain rfl : u = last := List.singleton_inj.1 (List.append_inj' hsplit rfl).2
        exact absurd h (huntouched u (by simp))
    · rintro rfl
      exact ⟨h, uses, [], rfl, fun _ hu => absurd hu List.not_mem_nil⟩
  · rw [if_neg h]
    constructor
    · rintro ⟨hkey, before, after, hsplit, huntouched⟩
      rcases List.eq_nil_or_concat' after with rfl | ⟨rest, last, rfl⟩
      · obtain rfl := List.singleton_inj.1 (List.append_inj' hsplit rfl).2
        exact absurd hkey h
      · rw [← List.cons_append, ← List.append_assoc] at hsplit
        exact ⟨hkey, before, rest, (List.append_inj' hsplit rfl).1, fun u hu =>
          huntouched u (List.mem_append_left _ hu)⟩
    · rintro ⟨hkey, before, after, rfl, huntouched⟩
      refine ⟨hkey, before, after ++ [u], by simp, fun v hv => ?_⟩
      rcases List.mem_append.1 hv with hv | hv
      · exact huntouched v hv
      · rw [List.mem_singleton.1 hv]
        exact h

/-- The register holds under each key the secret that was put last, unless the key was forgotten or
all was cleared since. -/
theorem mem_register_iff {key : Key} {uses : List (TimedUse τ)} {e : Entry τ} :
    register uses key = some e ↔ IsLatest key uses e := by
  induction uses using List.reverseRecOn with
  | nil =>
    constructor
    · intro h
      cases h
    · rintro ⟨-, before, after, hsplit, -⟩
      simp at hsplit
  | append_singleton uses u ih =>
    rw [register_concat, isLatest_concat_iff]
    by_cases h : u.use.Touches key
    · rw [if_pos h, Register.perform_eq_some_iff h]
    · rw [if_neg h, Register.perform_of_not_touches h, ih]

/-- What the register holds under a key depends only on the uses that touch it. -/
theorem register_filter (key : Key) (uses : List (TimedUse τ)) :
    register (uses.filter fun u => u.use.Touches key) key = register uses key := by
  induction uses using List.reverseRecOn with
  | nil => rfl
  | append_singleton uses u ih =>
    rw [List.filter_append, register_concat]
    by_cases h : u.use.Touches key
    · have hkept : [u].filter (fun u => u.use.Touches key) = [u] := by simp [h]
      rw [hkept, register_concat]
      refine Option.ext fun e => ?_
      rw [Register.perform_eq_some_iff h, Register.perform_eq_some_iff h]
    · have hdropped : [u].filter (fun u => u.use.Touches key) = [] := by simp [h]
      rw [hdropped, List.append_nil, Register.perform_of_not_touches h, ih]

/-! ## The cache beside the register -/

theorem find?_orElse_putOwn (c : Cache τ) (secret : Secret) (now : τ) (key : Key) :
    (Use.orElse c (c.putOwn secret now)).find? key =
      if secret.key = .ok key then some ⟨secret, now⟩ else c.find? key := by
  cases hput : c.putOwn secret now with
  | ok cache => exact find?_putOwn hput key
  | error m =>
    have hown : secret.key ≠ .ok key := fun hown => by
      rw [putOwn_eq_ok_iff.2 ⟨key, hown, rfl⟩] at hput
      cases hput
    exact (if_neg hown).symm

theorem find?_orElse_forgetValues (c : Cache τ) (space name : Value) (key : Key) :
    (Use.orElse c (c.forgetValues space name)).find? key =
      if Key.ofValues space name = .ok key then none else c.find? key := by
  cases hforget : c.forgetValues space name with
  | ok cache => exact find?_forgetValues hforget key
  | error m => exact (if_neg (ofValues_ne_of_forgetValues hforget key)).symm

theorem ttl_orElse_putOwn (c : Cache τ) (secret : Secret) (now : τ) :
    (Use.orElse c (c.putOwn secret now)).ttl = c.ttl := by
  cases hput : c.putOwn secret now with
  | ok cache => exact ttl_of_putOwn hput
  | error m => rfl

theorem ttl_orElse_forgetValues (c : Cache τ) (space name : Value) :
    (Use.orElse c (c.forgetValues space name)).ttl = c.ttl := by
  cases hforget : c.forgetValues space name with
  | ok cache => exact ttl_of_forgetValues hforget
  | error m => rfl

section

variable [Time τ] {c : Cache τ} {r : Register τ} {now : τ} {key : Key} {e? : Option (Entry τ)}

/-- The cache has this under a key, unless it is too old and was dropped when somebody asked for
it. -/
def HasUnlessOld (c : Cache τ) (now : τ) (key : Key) (e? : Option (Entry τ)) : Prop :=
  c.find? key = e? ∨ c.find? key = none ∧ ∃ e, e? = some e ∧ c.isExpired e now = true

/-- What is in the register is in the cache, or it is too old and gone there; and the cache holds
nothing else. -/
def Tracks (c : Cache τ) (now : τ) (r : Register τ) : Prop :=
  ∀ key, c.HasUnlessOld now key (r key)

/-- What a register has to say about a key at a time: its secret if it is not older than the time to
live. -/
def fresh? (ttl : τ) (now : τ) (e? : Option (Entry τ)) : Option Secret :=
  (e?.filter fun e => ! Decidable.decide (ttl < now - e.storedAt)).map Entry.secret

theorem get_fst (c : Cache τ) (key : Key) (now : τ) :
    (c.get key now).1 = fresh? c.ttl now (c.find? key) := by
  rw [get, fresh?]
  cases c.find? key with
  | none => rfl
  | some e => by_cases h : c.ttl < now - e.storedAt <;> simp [isExpired, h]

theorem ttl_perform (c : Cache τ) (now : τ) (use : Use) :
    (use.perform now c).2.ttl = c.ttl := by
  cases use with
  | put secret => exact ttl_orElse_putOwn c secret now
  | get space name =>
    rw [Use.perform]
    cases Key.ofValues space name with
    | error m => rfl
    | ok key => exact ttl_get c key now
  | forget space name => exact ttl_orElse_forgetValues c space name
  | clear => rfl

theorem ttl_afterUses (c : Cache τ) (uses : List (TimedUse τ)) :
    (afterUses c uses).ttl = c.ttl := by
  induction uses generalizing c with
  | nil => rfl
  | cons u uses ih => exact (ih _).trans (ttl_perform c u.time u.use)

/-- Beside a register a cache hands out what the register says. -/
theorem Tracks.get_fst (h : Tracks c now r) (key : Key) :
    (c.get key now).1 = fresh? c.ttl now (r key) := by
  rw [Cache.get_fst]
  rcases h key with hsame | ⟨hgone, e, he, hexpired⟩
  · rw [hsame]
  · have hold : c.ttl < now - e.storedAt := of_decide_eq_true hexpired
    rw [hgone, he, fresh?, fresh?]
    simp [hold]

theorem HasUnlessOld.of_find? {d : Cache τ} (h : c.HasUnlessOld now key e?)
    (hfind : d.find? key = c.find? key) (httl : d.ttl = c.ttl) : d.HasUnlessOld now key e? := by
  simp only [HasUnlessOld, isExpired, hfind, httl]
  exact h

theorem HasUnlessOld.putOwn (h : c.HasUnlessOld now key e?) (secret : Secret) :
    (Use.orElse c (c.putOwn secret now)).HasUnlessOld now key
      (if secret.key = .ok key then some ⟨secret, now⟩ else e?) := by
  have hput := find?_orElse_putOwn c secret now key
  by_cases hkey : secret.key = .ok key
  · rw [if_pos hkey] at hput ⊢
    exact .inl hput
  · rw [if_neg hkey] at hput ⊢
    exact h.of_find? hput (ttl_orElse_putOwn c secret now)

theorem HasUnlessOld.forgetValues (h : c.HasUnlessOld now key e?) (space name : Value) :
    (Use.orElse c (c.forgetValues space name)).HasUnlessOld now key
      (if Key.ofValues space name = .ok key then none else e?) := by
  have hforget := find?_orElse_forgetValues c space name key
  by_cases hkey : Key.ofValues space name = .ok key
  · rw [if_pos hkey] at hforget ⊢
    exact .inl hforget
  · rw [if_neg hkey] at hforget ⊢
    exact h.of_find? hforget (ttl_orElse_forgetValues c space name)

/-- A get may find an entry too old and drop it, which is all that it changes. -/
theorem HasUnlessOld.get (h : c.HasUnlessOld now key e?) (own : Key) :
    (c.get own now).2.HasUnlessOld now key e? := by
  have httl := ttl_get c own now
  rcases find?_get c own now key with hsame | ⟨hgone, e, he, hold⟩
  · exact h.of_find? hsame httl
  · refine .inr ⟨hgone, e, ?_, ?_⟩
    · rcases h with hsame | ⟨hnone, -⟩
      · exact hsame.symm.trans he
      · rw [hnone] at he
        cases he
    · rw [isExpired, httl]
      exact hold

variable [Time.IsExact τ]

theorem HasUnlessOld.later {later : τ} (h : c.HasUnlessOld now key e?) (hlater : now ≤ later) :
    c.HasUnlessOld later key e? := by
  rcases h with hsame | ⟨hgone, e, he, hexpired⟩
  · exact .inl hsame
  · exact .inr ⟨hgone, e, he, isExpired_mono hlater hexpired⟩

theorem Tracks.later {later : τ} (h : Tracks c now r) (hlater : now ≤ later) :
    Tracks c later r :=
  fun key => (h key).later hlater

/-- A use keeps the cache beside the register, since an entry that is too old stays so. -/
theorem Tracks.perform {u : TimedUse τ} (h : Tracks c now r) (hnow : now ≤ u.time) :
    Tracks (u.use.perform u.time c).2 u.time (r.perform u) := by
  obtain ⟨time, use⟩ := u
  intro key
  have hlater : c.HasUnlessOld time key (r key) := (h key).later hnow
  cases use with
  | put secret => exact hlater.putOwn secret
  | get space name =>
    rw [Use.perform]
    cases Key.ofValues space name with
    | error m => exact hlater
    | ok own => exact hlater.get own
  | forget space name => exact hlater.forgetValues space name
  | clear => exact .inl rfl

theorem tracks_afterUses (ttl : τ) {uses : List (TimedUse τ)} (h : Forward uses now) :
    Tracks (afterUses { ttl := ttl } uses) now (register uses) := by
  induction uses using List.reverseRecOn generalizing now with
  | nil => exact fun key => .inl rfl
  | append_singleton uses u ih =>
    rw [Forward, List.map_append, List.isChain_append] at h
    obtain ⟨hbefore, -, hlast⟩ := h
    have hnow : u.time ≤ now := by
      refine hlast u.time ?_ now rfl
      rw [List.map_singleton, List.getLast?_concat]
      rfl
    have htracks : Tracks (afterUses { ttl := ttl } uses) u.time (register uses) := ih hbefore
    rw [afterUses, List.foldl_concat, register_concat]
    exact (htracks.perform (Time.le_refl _)).later hnow

theorem fresh?_eq_some_iff {ttl : τ} {e? : Option (Entry τ)} {secret : Secret} :
    fresh? ttl now e? = some secret ↔
      ∃ storedAt, e? = some ⟨secret, storedAt⟩ ∧ now - storedAt ≤ ttl := by
  cases e? with
  | none => simp [fresh?]
  | some e =>
    obtain ⟨other, storedAt⟩ := e
    by_cases h : ttl < now - storedAt
    · have hold : ¬ now - storedAt ≤ ttl := fun hle => Time.IsExact.not_lt.2 hle h
      simp [fresh?, h, hold]
    · have hyoung : now - storedAt ≤ ttl := Time.IsExact.not_lt.1 h
      simp [fresh?, h, hyoung]

/-- Whatever a new cache was used for, as long as the clock did not go back, a get hands out the
secret that was put last under the key, unless the key was forgotten or all was cleared since, and
if this is not longer ago than the time to live.  This is what the register says, which drops
nothing for its age.  It depends only on the uses that touch the key; so other keys and other gets
do not matter. -/
theorem get_after_uses (ttl : τ) {uses : List (TimedUse τ)} {space name : Value} {key : Key}
    (hforward : Forward uses now) (hkey : Key.ofValues space name = .ok key) :
    ∃ answer,
      ((Use.get space name).perform now (afterUses { ttl := ttl } uses)).1 = .ok answer ∧
      (∀ secret, answer = some secret ↔
        ∃ storedAt, IsLatest key uses ⟨secret, storedAt⟩ ∧ now - storedAt ≤ ttl) ∧
      answer = fresh? ttl now (register uses key) ∧
      ∀ others, Forward others now →
        (others.filter fun u => u.use.Touches key) = (uses.filter fun u => u.use.Touches key) →
        ((Use.get space name).perform now (afterUses { ttl := ttl } others)).1 = .ok answer := by
  have hanswer : ∀ {uses : List (TimedUse τ)}, Forward uses now →
      ((Use.get space name).perform now (afterUses { ttl := ttl } uses)).1 =
        .ok (fresh? ttl now (register uses key)) := by
    intro uses hforward
    have htracks : Tracks (afterUses { ttl := ttl } uses) now (register uses) :=
      tracks_afterUses ttl hforward
    rw [Use.perform, hkey]
    show Except.ok ((afterUses { ttl := ttl } uses).get key now).1 = _
    rw [htracks.get_fst, ttl_afterUses]
  refine ⟨_, hanswer hforward, fun secret => ?_, rfl, fun others hothers hsame => ?_⟩
  · simp only [fresh?_eq_some_iff, mem_register_iff]
  · rw [hanswer hothers, ← register_filter, hsame, register_filter]

end

namespace Example

/-- A secret as it was seen first. -/
def older : Secret where
  name := .text "config"
  space := .text "apps"
  resourceVersion := .text "1"

/-- The secret when it has changed. -/
def newer : Secret := { older with resourceVersion := .text "2" }

/-- To get the secret. -/
def fetch : Use := .get (.text "apps") (.text "config")

/-- The secret is stored, asked for too late, and stored again; another one is forgotten. -/
def uses : List (TimedUse ℚ) :=
  [⟨0, .put older⟩, ⟨40, fetch⟩, ⟨50, .put newer⟩, ⟨60, .forget (.text "apps") (.text "other")⟩]

/-- The secret is stored twice. -/
def puts : List (TimedUse ℚ) := [⟨0, .put older⟩, ⟨50, .put newer⟩]

end Example

open Example in
theorem get_after_refreshing :
    (fetch.perform (70 : ℚ) (afterUses { ttl := 30 } uses)).1 = .ok (some newer) ∧
      (fetch.perform (70 : ℚ) (afterUses { ttl := 30 } puts)).1 = .ok (some newer) := by
  have hkey : Key.ofValues (.text "apps") (.text "config") = .ok (.ofTexts "apps" "config") :=
    Key.ofValues_text _ _
  have hforward : Forward uses (70 : ℚ) := by decide +kernel
  have hputs : Forward puts (70 : ℚ) := by decide +kernel
  obtain ⟨answer, hget, hlatest, -, hothers⟩ := get_after_uses 30 hforward hkey
  have hanswer : answer = some newer := by
    refine (hlatest newer).2 ⟨50, ⟨rfl, uses.take 2, uses.drop 3, rfl, fun u hu => ?_⟩, ?_⟩
    · rw [List.mem_singleton.1 hu]
      decide
    · decide +kernel
  rw [hanswer] at hget hothers
  exact ⟨hget, hothers puts hputs rfl⟩

end SecretMirror.Cache
