import SecretMirror.Proofs.LateEvents.Versions

/-!
# What a look-up of the canonical secret finds

Most of what the operator does neither writes nor brings a copy of the canonical secret into the
cache, and then a history only advances (`advances_of_asksOnly`).  The exception is a look-up of the
canonical secret.  It finds what was cached, or reads a version that is the latest one at that
moment and caches it; in either case no other copy is cached afterwards (`finds_of_lookUp`).

All of this goes on while others act: the owner may store new versions at any moment.
-/

namespace SecretMirror

open Operator
open Program hiding bind ask

namespace History

variable {τ : Type} [Time τ] {h h' : History τ} (timing : Resync.Timing τ)

/-! ## Parts that bring nothing in -/

/-- A program that asks only what is free neither writes nor brings a copy in. -/
theorem advances_of_asksOnly {α : Type} {p : Task τ α} (hp : p.AsksOnly Request.IsFree)
    {xs : List (Exchange (requests τ) (Fault τ))} {r : Except (Fault τ) α}
    (hrun : p.InterferedRun (handle timing) Interferes h xs r h') :
    h ≤ h' ∧ occurrencesOf xs = [] := by
  obtain ⟨hadvances, hasked⟩ := hrun.relates (R := fun h h' : History τ => h ≤ h') hp le_refl
    le_trans (fun q h hq => advances_of_isFree timing hq h) Interferes.advances
  exact ⟨hadvances, occurrencesOf_eq_nil fun x hx => (hasked x hx).isHarmless⟩

theorem le_of_isBookkeeping {α : Type} {p : Task τ α} (hp : IsBookkeeping p)
    {xs : List (Exchange (requests τ) (Fault τ))} {r : Except (Fault τ) α}
    (hrun : p.InterferedRun (handle timing) Interferes h xs r h') : h ≤ h' := by
  obtain ⟨hle, -⟩ := advances_of_asksOnly timing (hp.imp fun _ hq => hq.isFree) hrun
  exact hle

theorem of_interferedRun_done {α : Type} {a r : Except (Fault τ) α}
    {xs : List (Exchange (requests τ) (Fault τ))}
    (hrun : (Program.done a : Task τ α).InterferedRun (handle timing) Interferes h xs r h') :
    r = a ∧ xs = [] ∧ h ≤ h' :=
  hrun.of_done le_refl le_trans Interferes.advances

/-- A copy of the canonical secret is cached, and whatever others do, no other copy is. -/
theorem of_interferedRun_cachePut {s : Secret} (hs : h.IsSound) (hkey : s.key = .ok .source)
    {xs : List (Exchange (requests τ) (Fault τ))} {r : Except (Fault τ) Unit}
    (hrun : (ask (.cachePut s)).InterferedRun (handle timing) Interferes h xs r h') :
    r = .ok () ∧ h.versions <+: h'.versions ∧ h'.IsSound ∧
      ∀ e, h'.cached? .source = some e → e.secret = s := by
  obtain ⟨h₁, hle₁, rfl, hle₂, -⟩ :=
    hrun.of_request (R := (· ≤ ·)) le_refl le_trans Interferes.advances
  have hsound := isSound_cachePut timing s (hle₁.sound hs)
  rw [handle_cachePut timing hkey h₁] at hle₂ hsound ⊢
  refine ⟨rfl, hle₁.versions.trans hle₂.versions, hle₂.sound hsound, fun e he => ?_⟩
  have hfind := hle₂.cached e he
  dsimp only [cached?] at hfind
  rw [Cache.find?_put, if_pos rfl] at hfind
  cases hfind
  rfl

/-! ## Taking up the canonical secret -/

theorem exists_key_of_read {space name : Value} {c : Cluster τ} {w : WireSecret}
    (hread : (c.read space name).1 = .ok w) :
    ∃ key, Key.ofValues space name = .ok key ∧ c.server.objects key = some w := by
  cases hkey : Key.ofValues space name with
  | ok key => exact ⟨key, rfl, Cluster.objects_of_read hkey hread⟩
  | error reason =>
    unfold Cluster.read at hread
    rw [hkey] at hread
    split at hread <;> cases hread

/-- To read the canonical secret is to read a version that is not older than the one with the number
before `n`.  Nothing else is expected, and nothing but what is free is asked. -/
def reading (n : Nat) : Contract (requests τ) (Fault τ) (History τ) where
  permits _ q := q.IsFree
  expects h
    | .read space name, a => ∀ w, a = .ok w → Key.ofValues space name = .ok .source →
      ∃ k, n ≤ k + 1 ∧ h.versions[k]? = some w
    | _, _ => True

/-- A sound history answers by the version that is stored. -/
theorem answers_reading {n : Nat} {q : (requests τ).Request}
    (hs : h.IsSound ∧ n ≤ h.versions.length) (hq : (reading n).permits h q) :
    ((h.handle timing q).2.IsSound ∧ n ≤ (h.handle timing q).2.versions.length) ∧
      h ≤ (h.handle timing q).2 ∧
      (reading n).expects (h.handle timing q).2 q (h.handle timing q).1 := by
  have hadvances : h.Advances (h.handle timing q).2 := advances_of_isFree timing hq h
  refine ⟨⟨hadvances.sound hs.1, hs.2⟩, hadvances, ?_⟩
  cases q with
  | read space name =>
    intro w hw hkey
    obtain ⟨key, hkey', hstored⟩ := exists_key_of_read hw
    rw [hkey] at hkey'
    cases hkey'
    have hlast : h.versions.getLast? = some w := hs.1.current w hstored
    have hne : h.versions ≠ [] := by
      intro hnil
      rw [hnil] at hlast
      cases hlast
    have hpos : 0 < h.versions.length := List.length_pos_iff.2 hne
    refine ⟨h.versions.length - 1, ?_, ?_⟩
    · have hle := hs.2
      omega
    · rw [List.getLast?_eq_getElem?] at hlast
      exact hlast
  | _ => trivial

omit [Time τ] in
theorem permitsCaching_reading (n : Nat) :
    (reading n : Contract (requests τ) (Fault τ) (History τ)).PermitsCaching fun _ _ => False :=
  ⟨fun _ _ hq => hq, fun _ _ => False.elim, fun _ => id⟩

/-- What is found by reading the canonical secret is the version that was the latest at some moment
of the reading. -/
theorem exists_version_of_readThrough {rate : τ} {xs : List (Exchange (requests τ) (Fault τ))}
    {r : Except (Fault τ) (Option WireSecret)} (hs : h.IsSound)
    (hrun : (readThrough rate (.text Names.configNamespace) (.text Names.source)).InterferedRun
      (handle timing) Interferes h xs r h') :
    h ≤ h' ∧ ∀ w, r = .ok (some w) →
      ∃ k, h.versions.length ≤ k + 1 ∧ h'.versions[k]? = some w := by
  have hkeeps := (permitsCaching_reading h.versions.length).readThrough (k := h)
    (R := fun l w => ∃ k, h.versions.length ≤ k + 1 ∧ l.versions[k]? = some w)
    (.text Names.configNamespace) (.text Names.source) ?mono ?read rate
  case mono =>
    rintro k l w ⟨hlater, -, -⟩ ⟨i, hi, hw⟩
    exact ⟨i, hi, getElem?_later hlater hw⟩
  case read =>
    intro l w hexpected
    exact hexpected w rfl rfl
  obtain ⟨-, hle, hresult, -⟩ := hrun.keeps
    (I := fun u => u.IsSound ∧ h.versions.length ≤ u.versions.length) id
    (fun hu hq => answers_reading timing hu hq)
    (fun hu hinterferes => ⟨⟨hinterferes.advances.sound hu.1,
      le_trans hu.2 hinterferes.advances.versions.length_le⟩, hinterferes.advances⟩)
        hkeeps ⟨hs, le_rfl⟩
  exact ⟨hle, fun w hw => hresult (some w) hw w rfl⟩

/-- A look-up of the canonical secret has come to an end.  What is cached of it has a property, and
so has what was found; in that case nothing else is cached. -/
structure Finds (h : History τ) (P : Secret → Prop) (r : Except (Fault τ) (Option Secret))
    (h' : History τ) : Prop where
  versions : h.versions <+: h'.versions
  sound : h'.IsSound
  cached : ∀ e, h'.cached? .source = some e → P e.secret
  found : ∀ s, r = .ok (some s) → P s
  only : ∀ s, r = .ok (some s) → ∀ e, h'.cached? .source = some e → e.secret = s

namespace Finds

variable {P Q : Secret → Prop} {r : Except (Fault τ) (Option Secret)}

omit [Time τ] in
theorem imp (hf : h.Finds P r h') (himp : ∀ s, P s → Q s) : h.Finds Q r h' where
  versions := hf.versions
  sound := hf.sound
  cached e he := himp _ (hf.cached e he)
  found s hs := himp s (hf.found s hs)
  only := hf.only

omit [Time τ] in
theorem of_le {h₀ : History τ} (hle : h₀ ≤ h) (hf : h.Finds P r h') : h₀.Finds P r h' where
  versions := hle.versions.trans hf.versions
  sound := hf.sound
  cached := hf.cached
  found := hf.found
  only := hf.only

omit [Time τ] in
theorem of_nothing (hle : h ≤ h') (hs : h.IsSound)
    (hP : ∀ e, h.cached? .source = some e → P e.secret) (hr : ∀ s, r ≠ .ok (some s)) :
    h.Finds P r h' where
  versions := hle.versions
  sound := hle.sound hs
  cached e he := hP e (hle.cached e he)
  found s hs := absurd hs (hr s)
  only s hs := absurd hs (hr s)

end Finds

/-- A version that was read is cached, unless it cannot be read as a secret; then the look-up
fails. -/
theorem finds_of_takeIn {raw : WireSecret} {P : Secret → Prop}
    {xs : List (Exchange (requests τ) (Fault τ))} {r : Except (Fault τ) (Option Secret)}
    (hs : h.IsSound) (hraw : raw.IsAbout .source)
    (hcached : ∀ e, h.cached? .source = some e → P e.secret)
    (hcopy : ∀ s, Secret.ofWire raw = .ok s → P s)
    (hrun : (takeIn raw).InterferedRun (handle timing) Interferes h xs r h') : h.Finds P r h' := by
  obtain ⟨_, a, h₁, _, hcounted, hrun, -⟩ := hrun.of_bind
  have hle₁ : h ≤ h₁ := le_of_isBookkeeping timing (isBookkeeping_count _) hcounted
  cases a with
  | error fault =>
    obtain ⟨rfl, -, hle⟩ := of_interferedRun_done timing hrun
    exact .of_nothing (hle₁.trans hle) hs hcached nofun
  | ok _ =>
    obtain ⟨_, a, h₂, _, hchecked, hrun, -⟩ := InterferedRun.of_bind hrun
    obtain ⟨rfl, -, hle₂⟩ := of_interferedRun_done timing hchecked
    have hle : h ≤ h₂ := hle₁.trans hle₂
    cases hread : Secret.ofWire raw with
    | error reason =>
      rw [hread] at hrun
      obtain ⟨rfl, -, hle₃⟩ := of_interferedRun_done timing hrun
      exact .of_nothing (hle.trans hle₃) hs hcached nofun
    | ok secret =>
      rw [hread] at hrun
      have hown : secret.key = .ok .source := by
        obtain ⟨_, _, _, _, -, -, -, -, rfl⟩ := Secret.ofWire_eq_ok_iff.1 hread
        exact hraw
      obtain ⟨_, a, h₃, _, hput, hrun, -⟩ := InterferedRun.of_bind hrun
      obtain ⟨rfl, hversions, hsound, honly⟩ := of_interferedRun_cachePut timing (hle.sound hs)
        hown hput
      obtain ⟨rfl, -, hle₃⟩ := of_interferedRun_done timing hrun
      have honly' : ∀ e, h'.cached? .source = some e → e.secret = secret := fun e he =>
        honly e (hle₃.cached e he)
      refine ⟨hle.versions.trans (hversions.trans hle₃.versions), hle₃.sound hsound, ?_, ?_, ?_⟩
      · intro e he
        rw [honly' e he]
        exact hcopy secret hread
      · rintro s ⟨⟩
        exact hcopy secret hread
      · rintro s ⟨⟩
        exact honly'

/-- The secret is what was cached of the canonical one at first, or a copy of a version that was the
latest one meanwhile. -/
def Shows (h h' : History τ) (s : Secret) : Prop :=
  (∃ e, h.cached? .source = some e ∧ e.secret = s) ∨
    ∃ k, h.versions.length ≤ k + 1 ∧ Copies h'.versions k s

omit [Time τ] in
theorem Shows.of_le {h₀ : History τ} {s : Secret} (hle : h₀ ≤ h) (hs : h.Shows h' s) :
    h₀.Shows h' s := by
  rcases hs with ⟨e, he, rfl⟩ | ⟨k, hk, hcopies⟩
  · exact .inl ⟨e, hle.cached e he, rfl⟩
  · exact .inr ⟨k, hle.versions.length_le.trans hk, hcopies⟩

theorem finds_of_cached {s : Secret} (hs : h.IsSound)
    (honly : ∀ e, h.cached? .source = some e → e.secret = s) {series : Series}
    {xs : List (Exchange (requests τ) (Fault τ))} {r : Except (Fault τ) (Option Secret)}
    (hrun : (count series >>= fun _ => pure (some s)).InterferedRun (handle timing)
      Interferes h xs r h') :
    h.Finds (· = s) r h' := by
  obtain ⟨_, a, h₁, _, hcounted, hrun, -⟩ := hrun.of_bind
  have hle₁ : h ≤ h₁ := le_of_isBookkeeping timing (isBookkeeping_count _) hcounted
  cases a with
  | error fault =>
    obtain ⟨rfl, -, hle₂⟩ := of_interferedRun_done timing hrun
    exact .of_nothing (hle₁.trans hle₂) hs honly nofun
  | ok _ =>
    obtain ⟨rfl, -, hle₂⟩ := of_interferedRun_done timing hrun
    have hle : h ≤ h' := hle₁.trans hle₂
    refine ⟨hle.versions, hle.sound hs, fun e he => honly e (hle.cached e he), ?_, ?_⟩
    · rintro t ⟨⟩
      rfl
    · rintro t ⟨⟩ e he
      exact honly e (hle.cached e he)

theorem finds_of_read {rate : τ} (hs : h.IsSound) {xs : List (Exchange (requests τ) (Fault τ))}
    {r : Except (Fault τ) (Option Secret)}
    (hrun : (do
      match ← readThrough rate (.text Names.configNamespace) (.text Names.source) with
      | none => return none
      | some raw => takeIn raw : Task τ (Option Secret)).InterferedRun (handle timing)
        Interferes h xs r h') :
    h.Finds (h.Shows h') r h' := by
  have hcached : ∀ e, h.cached? .source = some e → h.Shows h' e.secret := fun e he =>
    .inl ⟨e, he, rfl⟩
  obtain ⟨_, a, h₁, _, hthrough, hrun, -⟩ := hrun.of_bind
  obtain ⟨hle₁, hversion⟩ := exists_version_of_readThrough timing hs hthrough
  cases a with
  | error fault =>
    obtain ⟨rfl, -, hle₂⟩ := of_interferedRun_done timing hrun
    exact .of_nothing (hle₁.trans hle₂) hs hcached nofun
  | ok found =>
    cases found with
    | none =>
      obtain ⟨rfl, -, hle₂⟩ := of_interferedRun_done timing hrun
      exact .of_nothing (hle₁.trans hle₂) hs hcached nofun
    | some raw =>
      obtain ⟨k, hk, hraw⟩ := hversion raw rfl
      have hsound : h₁.IsSound := hle₁.sound hs
      have habout : raw.IsAbout .source := hsound.canonical raw (List.mem_of_getElem? hraw)
      have hf := finds_of_takeIn timing hsound habout
        (P := fun s => (∃ e, h.cached? .source = some e ∧ e.secret = s) ∨ Copies h₁.versions k s)
        (fun e he => .inl ⟨e, hle₁.cached e he, rfl⟩) (fun s hread => .inr ⟨raw, hraw, hread⟩) hrun
      refine (hf.of_le hle₁).imp fun s hs => hs.imp_right fun hcopies => ?_
      exact ⟨k, hk, hcopies.mono hf.versions⟩

/-- A look-up of the canonical secret finds what was cached, or the latest version. -/
theorem finds_of_lookUp {rate : τ} {xs : List (Exchange (requests τ) (Fault τ))}
    {r : Except (Fault τ) (Option Secret)} (hs : h.IsSound)
    (hrun : (lookUp rate (.text Names.configNamespace) (.text Names.source)).InterferedRun
      (handle timing)
      Interferes h xs r h') : h.Finds (h.Shows h') r h' := by
  obtain ⟨_, a, h₁, _, hchecked, hrun, -⟩ := hrun.of_bind
  obtain ⟨rfl, -, hle₁⟩ := of_interferedRun_done timing hchecked
  obtain ⟨_, a, h₃, _, hget, hrun, -⟩ := InterferedRun.of_bind hrun
  obtain ⟨h₂, hle₂, rfl, hle₃, -⟩ := hget.of_request (R := (· ≤ ·))
    le_refl le_trans Interferes.advances
  have hgot : h₂ ≤ (h₂.handle timing (.cacheGet .source)).2 :=
    advances_of_isFree timing (q := .cacheGet .source) trivial h₂
  have hle : h ≤ h₃ := hle₁.trans (hle₂.trans (hgot.trans hle₃))
  change (resume _ (.ok (h₂.cluster.cache.get .source h₂.cluster.clock).1)).InterferedRun
    _ _ _ _ _ _ at hrun
  cases hfound : (h₂.cluster.cache.get .source h₂.cluster.clock).1 with
  | some secret =>
    rw [hfound] at hrun
    obtain ⟨e, he, -, rfl⟩ := Cache.find?_of_get _ _ _ hfound
    have honly : ∀ e', h₃.cached? .source = some e' → e'.secret = e.secret := by
      intro e' he'
      have hsame : h₂.cached? .source = some e' := (hgot.trans hle₃).cached e' he'
      rw [cached?, he] at hsame
      cases hsame
      rfl
    refine ((finds_of_cached timing (hle.sound hs) honly hrun).of_le hle).imp fun s hs => ?_
    exact .inl ⟨e, (hle₁.trans hle₂).cached e he, hs.symm⟩
  | none =>
    rw [hfound] at hrun
    exact ((finds_of_read timing (hle.sound hs) hrun).of_le hle).imp fun s hs => hs.of_le hle

end History

end SecretMirror
