import SecretMirror.Cache
import SecretMirror.Proofs.ExactTime

/-!
# Where cached entries come from

Every operation on a cache leaves entries that were there before or that it was given
(`Cache.find?_putOwn`, `Cache.find?_forgetValues`, `Cache.find?_get`).  What is handed out for a key
is the entry under that key, and it is not too old.
-/

namespace SecretMirror

namespace Cache

variable {τ : Type}

/-- A secret can be stored if it has a key. -/
theorem putOwn_eq_ok_iff {c cache : Cache τ} {secret : Secret} {now : τ} :
    c.putOwn secret now = .ok cache ↔
      ∃ key, secret.key = .ok key ∧ c.put key secret now = cache := by
  unfold putOwn
  cases secret.key with
  | error m => simp [bind, Except.bind]
  | ok own => simp [bind, Except.bind, pure, Except.pure]

/-- Anything can be dropped from an empty cache, and only what has a key from another. -/
theorem forgetValues_eq_ok_iff {c cache : Cache τ} {space name : Value} :
    c.forgetValues space name = .ok cache ↔ (c.slots = [] ∧ c = cache) ∨
      (c.slots ≠ [] ∧ ∃ key, Key.ofValues space name = .ok key ∧ c.forget key = cache) := by
  unfold forgetValues
  by_cases hempty : c.slots = []
  · simp [hempty]
  · cases Key.ofValues space name with
    | error m => simp [hempty, bind, Except.bind]
    | ok own => simp [hempty, bind, Except.bind, pure, Except.pure]

theorem exists_forgetValues_iff (cache : Cache τ) (space name : Value) :
    (∃ later, cache.forgetValues space name = .ok later) ↔
      cache.slots = [] ∨ ∃ key, Key.ofValues space name = .ok key := by
  simp only [forgetValues_eq_ok_iff]
  by_cases hempty : cache.slots = []
  · simp [hempty]
  · simp [hempty, exists_comm]

section

variable {c cache : Cache τ} {secret : Secret} {space name : Value} {now : τ}

theorem ofValues_ne_of_forgetValues {m : Malformed}
    (hforget : c.forgetValues space name = .error m) (key : Key) :
    Key.ofValues space name ≠ .ok key := by
  intro hkey
  obtain ⟨later, hlater⟩ := (exists_forgetValues_iff c space name).2 (.inr ⟨key, hkey⟩)
  rw [hforget] at hlater
  cases hlater

/-- A secret that is stored lies under its own key, as of now. -/
theorem find?_putOwn (hput : c.putOwn secret now = .ok cache) (key : Key) :
    cache.find? key = if secret.key = .ok key then some ⟨secret, now⟩ else c.find? key := by
  obtain ⟨own, hown, rfl⟩ := putOwn_eq_ok_iff.1 hput
  rw [find?_put, hown]
  simp [eq_comm]

theorem find?_forgetValues (hforget : c.forgetValues space name = .ok cache) (key : Key) :
    cache.find? key = if Key.ofValues space name = .ok key then none else c.find? key := by
  rcases forgetValues_eq_ok_iff.1 hforget with ⟨hempty, rfl⟩ | ⟨-, own, hown, rfl⟩
  · simp [find?, hempty, lookup]
  · rw [find?_forget, hown]
    simp [eq_comm]

theorem ttl_of_putOwn (hput : c.putOwn secret now = .ok cache) : cache.ttl = c.ttl := by
  obtain ⟨own, -, rfl⟩ := putOwn_eq_ok_iff.1 hput
  rfl

theorem ttl_of_forgetValues (hforget : c.forgetValues space name = .ok cache) :
    cache.ttl = c.ttl := by
  rcases forgetValues_eq_ok_iff.1 hforget with ⟨-, rfl⟩ | ⟨-, own, -, rfl⟩ <;> rfl

variable {key : Key} {e : Entry τ}

/-- An entry was there before, or it is the secret that was stored just now, under its own key. -/
theorem entry_of_putOwn (hput : c.putOwn secret now = .ok cache)
    (h : cache.find? key = some e) :
    c.find? key = some e ∨ secret.key = .ok key ∧ e = ⟨secret, now⟩ := by
  rw [find?_putOwn hput] at h
  split at h
  · next hkey => exact .inr ⟨hkey, (Option.some.inj h).symm⟩
  · exact .inl h

theorem find?_of_putOwn (hput : c.putOwn secret now = .ok cache)
    (h : cache.find? key = some e) : c.find? key = some e ∨ e.secret = secret := by
  rcases entry_of_putOwn hput h with h | ⟨-, rfl⟩
  · exact .inl h
  · exact .inr rfl

theorem find?_of_forgetValues (hforget : c.forgetValues space name = .ok cache)
    (h : cache.find? key = some e) : c.find? key = some e := by
  rw [find?_forgetValues hforget] at h
  split at h
  · cases h
  · exact h

end

variable [Time τ] (c : Cache τ) (key : Key) (now : τ)

theorem get_of_find? {e : Entry τ} (h : c.find? key = some e)
    (hfresh : ¬ c.ttl < now - e.storedAt) :
    c.get key now = (some e.secret, c) := by
  simp [get, h, isExpired, hfresh]

/-- What is handed out is stored and not too old. -/
theorem find?_of_get {s : Secret} (h : (c.get key now).1 = some s) :
    ∃ e, c.find? key = some e ∧ c.isExpired e now = false ∧ e.secret = s := by
  unfold get at h
  cases he : c.find? key with
  | none => simp [he] at h
  | some e =>
    rw [he] at h
    dsimp only at h
    split at h
    · cases h
    · next hfresh => exact ⟨e, rfl, by simpa using hfresh, Option.some.inj h⟩

/-- After a get the cache is as it was, but an entry that is too old is gone. -/
theorem find?_get (other : Key) : (c.get key now).2.find? other = c.find? other ∨
    (c.get key now).2.find? other = none ∧
      ∃ e, c.find? other = some e ∧ c.isExpired e now = true := by
  rw [get]
  cases hfound : c.find? key with
  | none => exact .inl rfl
  | some e =>
    by_cases h : c.isExpired e now = true
    · simp only [h, if_true, find?_forget]
      by_cases heq : other = key
      · subst heq
        exact .inr ⟨by simp, e, hfound, h⟩
      · exact .inl (if_neg heq)
    · simp [h]

/-- Where nothing is handed out, nothing is left under the key: there was nothing, or it was dropped
for its age. -/
theorem find?_get_of_miss {key : Key} {now : τ} (h : (c.get key now).1 = none) (other : Key) :
    (c.get key now).2.find? other = if other = key then none else c.find? other := by
  unfold get at h ⊢
  cases hfound : c.find? key with
  | none =>
    dsimp only
    split
    · next heq => rw [heq, hfound]
    · rfl
  | some e =>
    rw [hfound] at h
    dsimp only at h ⊢
    split at h
    · next hold =>
      rw [if_pos hold]
      exact find?_forget c key other
    · cases h

theorem find?_of_find?_get {other : Key} {e : Entry τ}
    (h : (c.get key now).2.find? other = some e) : c.find? other = some e := by
  rcases find?_get c key now other with hsame | ⟨hgone, -⟩
  · exact hsame.symm.trans h
  · rw [hgone] at h
    cases h

@[simp] theorem ttl_get : (c.get key now).2.ttl = c.ttl := by
  unfold get
  split
  · rfl
  · split <;> rfl

/-- An entry that is too old stays so. -/
theorem isExpired_mono [Time.IsExact τ] {cache : Cache τ} {e : Entry τ} {now later : τ}
    (hle : now ≤ later) (h : cache.isExpired e now = true) :
    cache.isExpired e later = true := by
  simp only [isExpired, decide_eq_true_eq] at h ⊢
  exact Time.lt_of_lt_of_le h (Time.IsExact.sub_le_sub_right e.storedAt hle)

end Cache

end SecretMirror
