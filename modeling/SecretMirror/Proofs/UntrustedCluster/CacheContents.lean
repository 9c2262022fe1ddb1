import SecretMirror.Proofs.Expiry
import SecretMirror.Proofs.UntrustedCluster

/-!
# What is cached after some exchanges

What a thread has been answered says what it has made of the cache, whatever else it has asked
meanwhile.  Where something was dropped and nothing was put since, there is nothing
(`UntrustedCluster.find?_of_vacates`).  Where nothing was dropped there is what was there before or
what was put there since, unless that is too old and gone
(`UntrustedCluster.keepsUnlessExpired_of_grants`).  Answers are about what was asked for if
everything lies under its own key at first, and this stays so
(`UntrustedCluster.isHonest_of_grants`).

The first two are shown by what one exchange does (`UntrustedCluster.Answers.isVacant`,
`UntrustedCluster.Answers.hasUnlessOld`).
-/

namespace SecretMirror

open Operator Interleaving

namespace Operator

variable {τ : Type} {xs ys : List (Exchange (requests τ) (Fault τ))} {key : Key}

def Request.Drops (key : Key) : Request τ → Prop
  | .cacheForget space name => Key.ofValues space name = .ok key
  | _ => False

def Request.Puts (key : Key) : Request τ → Prop
  | .cachePut secret => secret.key = .ok key
  | _ => False

/-- At some moment a key was dropped, and nothing was put there since. -/
def Vacates (key : Key) (xs : List (Exchange (requests τ) (Fault τ))) : Prop :=
  ∃ before x after, xs = before ++ x :: after ∧ x.request.Drops key ∧
    ∀ y ∈ after, ¬ y.request.Puts key

theorem vacates_cons {x : Exchange (requests τ) (Fault τ)} (hx : x.request.Drops key)
    (hxs : ∀ y ∈ xs, ¬ y.request.Puts key) : Vacates key (x :: xs) :=
  ⟨[], x, xs, rfl, hx, hxs⟩

theorem Vacates.append_left (h : Vacates key ys) (xs : List (Exchange (requests τ) (Fault τ))) :
    Vacates key (xs ++ ys) := by
  obtain ⟨before, x, after, rfl, hx, hafter⟩ := h
  exact ⟨xs ++ before, x, after, by rw [List.append_assoc], hx, hafter⟩

theorem Vacates.append (h : Vacates key xs) (hys : ∀ y ∈ ys, ¬ y.request.Puts key) :
    Vacates key (xs ++ ys) := by
  obtain ⟨before, x, after, rfl, hx, hafter⟩ := h
  refine ⟨before, x, after ++ ys, by simp, hx, fun y hy => ?_⟩
  rcases List.mem_append.1 hy with hy | hy
  · exact hafter y hy
  · exact hys y hy

end Operator

namespace UntrustedCluster

variable {τ : Type} {s t : UntrustedCluster τ}

theorem Caches.eq {r : Except Malformed (Cache τ)} {a : Except (Fault τ) Unit}
    (h : s.Caches r a t) : t = { s with cache := Cache.Use.orElse s.cache r } := by
  cases r with
  | ok cache => exact h.2
  | error m => exact h.2

/-- From one state to another the cache has lost nothing under a key but on account of its age:
there is what was there before, or what was brought and put there meanwhile. -/
def KeepsUnlessExpired [Time τ] (brought : Secret → Prop) (key : Key) (s t : UntrustedCluster τ) :
    Prop :=
  ∃ e?, t.cache.HasUnlessOld t.clock key e? ∧ (e? = s.cache.find? key ∨
    ∃ e, e? = some e ∧ e.secret.key = .ok key ∧ brought e.secret ∧
      s.clock ≤ e.storedAt ∧ e.storedAt ≤ t.clock)

variable [Time τ] {q : Operator.Request τ} {a : Except (Fault τ) ((requests τ).Answer q)}
  {key : Key} {xs : List (Exchange (requests τ) (Fault τ))}

/-! ## One exchange -/

/-- What was dropped is not cached. -/
theorem Answers.isVacant (h : Answers q s a t) (hdrops : q.Drops key) :
    t.cache.find? key = none := by
  cases q with
  | cacheForget space name =>
    rw [Caches.eq h]
    exact (Cache.find?_orElse_forgetValues _ _ _ key).trans (if_pos hdrops)
  | _ => exact hdrops.elim

theorem Answers.stays_vacant (h : Answers q s a t) (hput : ¬ q.Puts key)
    (hs : s.cache.find? key = none) : t.cache.find? key = none := by
  refine Option.eq_none_iff_forall_ne_some.2 fun e he => ?_
  rcases h.cached he with he | ⟨hkey, -, heq⟩
  · rw [hs] at he
    cases he
  · cases heq
    exact hput hkey

variable [Time.IsExact τ]

/-- Where an exchange drops nothing, all stays as it was until it is too old, but for what is put
there now. -/
theorem Answers.hasUnlessOld {e? : Option (Entry τ)} (h : Answers q s a t)
    (hs : s.cache.HasUnlessOld s.clock key e?) (hdrops : ¬ q.Drops key) :
    t.cache.HasUnlessOld t.clock key e? ∨ ∃ secret, q = .cachePut secret ∧
      secret.key = .ok key ∧ t.cache.HasUnlessOld t.clock key (some ⟨secret, s.clock⟩) := by
  have hwaits : s.Waits t → t.cache.HasUnlessOld t.clock key e? := by
    intro hw
    rw [hw.cache]
    exact hs.later hw.clock
  cases q with
  | cacheGet other =>
    obtain ⟨-, rfl⟩ := h
    exact .inl (hs.get other)
  | cachePut secret =>
    have hput := hs.putOwn secret
    rw [Caches.eq h]
    by_cases hkey : secret.key = .ok key
    · rw [if_pos hkey] at hput
      exact .inr ⟨secret, rfl, hkey, hput⟩
    · rw [if_neg hkey] at hput
      exact .inl hput
  | cacheForget space name =>
    have hother : Key.ofValues space name ≠ .ok key := hdrops
    have hforget := hs.forgetValues space name
    rw [if_neg hother] at hforget
    rw [Caches.eq h]
    exact .inl hforget
  | _ => exact .inl (hwaits h.1)

/-! ## Any number of exchanges -/

omit [Time.IsExact τ] in
/-- Everything lies under its own key all the time, and the answers are about what was asked for. -/
theorem isHonest_of_grants (h : medium.Grants s xs t) (hs : s.IsFiled) :
    (∀ x ∈ xs, IsHonest x) ∧ t.IsFiled := by
  induction h with
  | none s => exact ⟨fun _ hx => absurd hx List.not_mem_nil, hs⟩
  | @next s t u x xs hx _ ih =>
    have hfiled : t.IsFiled := by
      intro key e he
      rcases Answers.cached hx he with he | ⟨hkey, -⟩
      · exact hs key e he
      · exact hkey
    obtain ⟨hhonest, hu⟩ := ih hfiled
    exact ⟨List.forall_mem_cons.2 ⟨Answers.isHonest hx hs, hhonest⟩, hu⟩

omit [Time.IsExact τ] in
theorem stays_vacant_of_grants (h : medium.Grants s xs t)
    (hputs : ∀ x ∈ xs, ¬ x.request.Puts key) (hs : s.cache.find? key = none) :
    t.cache.find? key = none := by
  induction h with
  | none s => exact hs
  | next hx _ ih =>
    obtain ⟨hput, hputs⟩ := List.forall_mem_cons.1 hputs
    exact ih hputs (Answers.stays_vacant hx hput hs)

omit [Time.IsExact τ] in
theorem find?_of_vacates (h : medium.Grants s xs t) (hvacates : Vacates key xs) :
    t.cache.find? key = none := by
  obtain ⟨before, x, after, rfl, hdrops, hafter⟩ := hvacates
  obtain ⟨u, -, hrest⟩ := Medium.grants_append_iff.1 h
  obtain ⟨v, hx, hrest⟩ := Medium.grants_cons_iff.1 hrest
  exact stays_vacant_of_grants hrest hafter (Answers.isVacant hx hdrops)

theorem clock_of_grants (h : medium.Grants s xs t) : s.clock ≤ t.clock := by
  induction h with
  | none s => exact Time.le_refl _
  | next hx _ ih => exact Time.IsExact.le_trans (Answers.passes hx).2 ih

/-- What would be there but for its age stays so, or is put there meanwhile. -/
theorem hasUnlessOld_of_grants {e? : Option (Entry τ)} (h : medium.Grants s xs t)
    (hdrops : ∀ x ∈ xs, ¬ x.request.Drops key) (hs : s.cache.HasUnlessOld s.clock key e?) :
    t.cache.HasUnlessOld t.clock key e? ∨ ∃ e, t.cache.HasUnlessOld t.clock key (some e) ∧
      e.secret.key = .ok key ∧ (∃ x ∈ xs, x.request = .cachePut e.secret) ∧
        s.clock ≤ e.storedAt ∧ e.storedAt ≤ t.clock := by
  induction h generalizing e? with
  | none s => exact .inl hs
  | @next s t u x xs hx hrest ih =>
    obtain ⟨hdrop, hdrops⟩ := List.forall_mem_cons.1 hdrops
    have hclock : s.clock ≤ t.clock := (Answers.passes hx).2
    -- The clock does not go back, so an entry that was put in a later step is not older than the
    -- start.
    have hnew : ∀ e : Entry τ, (∃ y ∈ xs, y.request = .cachePut e.secret) →
        ∃ y ∈ x :: xs, y.request = .cachePut e.secret := fun e ⟨y, hy, hput⟩ =>
      ⟨y, List.mem_cons_of_mem x hy, hput⟩
    rcases Answers.hasUnlessOld hx hs hdrop with ht | ⟨secret, hput, hkey, ht⟩
    · rcases ih hdrops ht with hu | ⟨e, hu, hown, hput, hfrom, huntil⟩
      · exact .inl hu
      · exact .inr ⟨e, hu, hown, hnew e hput, Time.IsExact.le_trans hclock hfrom, huntil⟩
    · right
      rcases ih hdrops ht with hu | ⟨e, hu, hown, hput, hfrom, huntil⟩
      · exact ⟨_, hu, hkey, ⟨x, List.mem_cons_self, hput⟩, Time.le_refl _,
          Time.IsExact.le_trans hclock (clock_of_grants hrest)⟩
      · exact ⟨e, hu, hown, hnew e hput, Time.IsExact.le_trans hclock hfrom, huntil⟩

/-- Where nothing was dropped, the cache has lost nothing but on account of its age, and what has
come in was brought. -/
theorem keepsUnlessExpired_of_grants {brought : Secret → Prop} (h : medium.Grants s xs t)
    (hdrops : ∀ x ∈ xs, ¬ x.request.Drops key)
    (hbrought : ∀ x ∈ xs, ∀ secret, x.request = .cachePut secret → brought secret) :
    s.KeepsUnlessExpired brought key t := by
  rcases hasUnlessOld_of_grants h hdrops (.inl rfl) with ht | ⟨e, ht, hkey, ⟨x, hx, hput⟩, htime⟩
  · exact ⟨_, ht, .inl rfl⟩
  · exact ⟨_, ht, .inr ⟨e, rfl, hkey, hbrought x hx _ hput, htime⟩⟩

end UntrustedCluster

end SecretMirror
