import SecretMirror.Proofs.Conduct
import SecretMirror.Proofs.SecretTraffic

/-!
# The traffic of a synchronisation

A synchronisation is conducted by look-ups, at most one write, and an event, and each of these has
its own traffic (`Operator.Proceeds`).  Together they supply all that is cached.  Something is
dropped exactly if a write was asked for and could not be made, and what is dropped is then the
mirror, which stays out of the cache (`Operator.outlined_of_conducts`).
-/

namespace SecretMirror.Operator

open Program hiding bind ask

variable {τ : Type}

/-! ## Collaborators -/

/-- The traffic of a collaborator, by what it was asked and what it came to. -/
def Does : (q : Sync.Request) → List (Exchange (requests τ) (Fault τ)) →
    Except (Fault τ) (Sync.collaborators.Answer q) → Prop
  | .lookUp space name, es, r => ∀ key, Key.ofValues space name = .ok key → LooksUp key es r
  | .create secret, es, r =>
    IsSendable secret ∧ WritesOut secret es r ∨ ¬ IsSendable secret ∧ es = []
  | .update secret, es, r => WritesOut secret es r
  | .emit .., es, _ => es = []

/-- The traffic of several collaborators, one after another. -/
inductive Proceeds : List (Exchange Sync.collaborators (Fault τ)) →
    List (Exchange (requests τ) (Fault τ)) → Prop where
  | none : Proceeds [] []
  | next {u : Exchange Sync.collaborators (Fault τ)}
    {us : List (Exchange Sync.collaborators (Fault τ))}
    {es fs : List (Exchange (requests τ) (Fault τ))}
    (hu : Does u.request es u.answer) (h : Proceeds us fs) : Proceeds (u :: us) (es ++ fs)

theorem proceeds_cons_iff {u : Exchange Sync.collaborators (Fault τ)}
    {us : List (Exchange Sync.collaborators (Fault τ))}
    {gs : List (Exchange (requests τ) (Fault τ))} :
    Proceeds (u :: us) gs ↔
      ∃ es fs, Does u.request es u.answer ∧ Proceeds us fs ∧ gs = es ++ fs := by
  constructor
  · intro h
    cases h with
    | next hu h => exact ⟨_, _, hu, h, rfl⟩
  · rintro ⟨es, fs, hu, h, rfl⟩
    exact .next hu h

theorem proceeds_nil_iff {gs : List (Exchange (requests τ) (Fault τ))} :
    Proceeds [] gs ↔ gs = [] := by
  constructor
  · intro h
    cases h
    rfl
  · rintro rfl
    exact .none

theorem proceeds_singleton_iff {u : Exchange Sync.collaborators (Fault τ)}
    {es : List (Exchange (requests τ) (Fault τ))} :
    Proceeds [u] es ↔ Does u.request es u.answer := by
  simp [proceeds_cons_iff, proceeds_nil_iff]

section

variable [Time τ]

theorem hasTraffic_collaborate (rate : τ) (reference : Value) (q : Sync.Request) :
    HasTraffic (collaborate rate reference q) (Does q) := by
  cases q with
  | lookUp space name => exact fun xs r h ht key hkey => hasTraffic_lookUp rate hkey xs r h ht
  | create secret => exact hasTraffic_create rate secret
  | update secret => exact hasTraffic_update rate secret
  | emit reason message => exact (noTraffic_ask rfl).enters fun _ => traffic_eq_none

theorem proceeds_of_carries {rate : τ} {reference : Value}
    {us : List (Exchange Sync.collaborators (Fault τ))}
    {xs : List (Exchange (requests τ) (Fault τ))}
    (h : Carries (collaborate rate reference) us xs) (htrusted : ∀ x ∈ xs, IsTrusted x) :
    Proceeds us (xs.filterMap traffic) := by
  induction h with
  | none => exact .none
  | next hx _ ih =>
    obtain ⟨hxs, hys⟩ := List.forall_mem_append.1 htrusted
    rw [List.filterMap_append]
    exact .next (hasTraffic_collaborate rate reference _ _ _ hx hxs) (ih hys)

end

/-! ## Synchronisations -/

/-- The collaborator has begun a write and has failed.  A creation is begun only if the secret can
be sent. -/
def IsFailedWrite : Exchange Sync.collaborators (Fault τ) → Prop
  | ⟨.create secret, .error _⟩ => IsSendable secret
  | ⟨.update _, .error _⟩ => True
  | _ => False

/-- A write has failed, and the API has not answered it. -/
def FailsToWrite (conduct : List (Exchange Sync.collaborators (Fault τ)))
    (xs : List (Exchange (requests τ) (Fault τ))) : Prop :=
  (∃ u ∈ conduct, IsFailedWrite u) ∧ ∀ x ∈ xs, hasWritten x = false

theorem failsToWrite_traffic_iff {conduct : List (Exchange Sync.collaborators (Fault τ))}
    {xs : List (Exchange (requests τ) (Fault τ))} :
    FailsToWrite conduct (xs.filterMap traffic) ↔ FailsToWrite conduct xs := by
  refine and_congr_right fun _ => ⟨fun h x hx => ?_, fun h x hx => h x (of_mem_traffic hx)⟩
  by_cases hwritten : hasWritten x = true
  · exact h x (mem_traffic hx (isTraffic_of_hasWritten hwritten))
  · simpa using hwritten

/-- What the traffic of a synchronisation has in common, whatever was decided. -/
structure Outlined (conduct : List (Exchange Sync.collaborators (Fault τ)))
    (es : List (Exchange (requests τ) (Fault τ))) : Prop where
  supplied : IsSupplied es
  drops : ∀ x ∈ es, ∀ key, x.request.Drops key → key = .target ∧ FailsToWrite conduct es
  vacates : FailsToWrite conduct es → Vacates .target es

/-- Some look-ups, which drop and write nothing. -/
structure OnlyLooksUp (es : List (Exchange (requests τ) (Fault τ))) : Prop where
  supplied : IsSupplied es
  dropsNothing : DropsNothing es
  readsOnly : ∀ x ∈ es, hasWritten x = false

variable {es fs : List (Exchange (requests τ) (Fault τ))}

theorem IsSupplied.append (hes : IsSupplied es) (hfs : IsSupplied fs) : IsSupplied (es ++ fs) := by
  intro x hx s hput
  rcases List.mem_append.1 hx with hx | hx
  · obtain ⟨y, hy, hsupplies⟩ := hes x hx s hput
    exact ⟨y, List.mem_append_left fs hy, hsupplies⟩
  · obtain ⟨y, hy, hsupplies⟩ := hfs x hx s hput
    exact ⟨y, List.mem_append_right es hy, hsupplies⟩

theorem LooksUp.onlyLooksUp {key : Key} {r : Except (Fault τ) (Option Secret)}
    (h : LooksUp key es r) : OnlyLooksUp es :=
  ⟨h.supplied, h.dropsNothing, h.readsOnly⟩

theorem OnlyLooksUp.append (hes : OnlyLooksUp es) (hfs : OnlyLooksUp fs) :
    OnlyLooksUp (es ++ fs) where
  supplied := hes.supplied.append hfs.supplied
  dropsNothing := List.forall_mem_append.2 ⟨hes.dropsNothing, hfs.dropsNothing⟩
  readsOnly := List.forall_mem_append.2 ⟨hes.readsOnly, hfs.readsOnly⟩

theorem OnlyLooksUp.outlined {conduct : List (Exchange Sync.collaborators (Fault τ))}
    (h : OnlyLooksUp es) (hnone : ∀ u ∈ conduct, ¬ IsFailedWrite u) : Outlined conduct es where
  supplied := h.supplied
  drops x hx key hdrops := absurd hdrops (h.dropsNothing x hx key)
  vacates := fun ⟨⟨u, hu, hfailed⟩, _⟩ => absurd hfailed (hnone u hu)

theorem OnlyLooksUp.outlined_append {conduct : List (Exchange Sync.collaborators (Fault τ))}
    {secret : Secret} {r : Except (Fault τ) Secret} (h : OnlyLooksUp es)
    (hwrites : WritesOut secret fs r) (hkey : secret.key = .ok .target)
    (hfailed : (∃ fault, r = .error fault) → ∃ u ∈ conduct, IsFailedWrite u) :
    Outlined conduct (es ++ fs) := by
  refine ⟨h.supplied.append hwrites.supplied, fun x hx key hdrops => ?_, fun hfails => ?_⟩
  · rcases List.mem_append.1 hx with hx | hx
    · exact absurd hdrops (h.dropsNothing x hx key)
    · obtain ⟨hown, hnone⟩ := hwrites.drops x hx key hdrops
      obtain ⟨herror, -⟩ := hwrites.fails hnone
      refine ⟨Except.ok.inj (hown.symm.trans hkey), hfailed herror, ?_⟩
      exact List.forall_mem_append.2 ⟨h.readsOnly, hnone⟩
  · have hnone : ∀ x ∈ fs, hasWritten x = false := (List.forall_mem_append.1 hfails.2).2
    exact ((hwrites.fails hnone).2 .target hkey).append_left es

/-- What is decided to be written has the key of the mirror. -/
theorem key_of_decides {source secret : Secret} {target : Option Secret} {decision : Decision}
    (h : Decides (.text Names.target) (some source) target decision)
    (hsource : source.key = .ok .source) (htarget : ∀ t, target = some t → t.key = .ok .target)
    (hsecret : decision.secret? = some secret) : secret.key = .ok .target := by
  cases h with
  | create hmirror =>
    cases hsecret
    exact Cluster.key_of_mirror hsource hmirror
  | foreign _ hmarker => cases hsecret
  | inSync hmarker hequal => cases hsecret
  | @update _ t data hmarker hdiffers hdata =>
    cases hsecret
    exact htarget t rfl

theorem outlined_of_executes (looks : List (Exchange Sync.collaborators (Fault τ)))
    {us : List (Exchange Sync.collaborators (Fault τ))} {decision : Decision}
    {r : Except (Fault τ) Unit}
    (hkey : ∀ secret, decision.secret? = some secret → secret.key = .ok .target)
    (hlooks : ∀ u ∈ looks, ¬ IsFailedWrite u) (hes : OnlyLooksUp es)
    (hexecutes : Sync.Executes {} decision us r) (hfs : Proceeds us fs) :
    Outlined (looks ++ us) (es ++ fs) := by
  have hsingle : ∀ {u : Exchange Sync.collaborators (Fault τ)}, IsFailedWrite u →
      ∃ v ∈ looks ++ [u], IsFailedWrite v := fun hu => ⟨_, by simp, hu⟩
  have hnone : ∀ us : List (Exchange Sync.collaborators (Fault τ)), (∀ u ∈ us, ¬ IsFailedWrite u) →
      Outlined (looks ++ us) es := fun us hus =>
    hes.outlined (List.forall_mem_append.2 ⟨hlooks, hus⟩)
  cases hexecutes with
  | noOp why =>
    obtain rfl := proceeds_nil_iff.1 hfs
    rw [List.append_nil, List.append_nil]
    exact hes.outlined hlooks
  | createFails secret fault =>
    rcases proceeds_singleton_iff.1 hfs with ⟨hsendable, hwrites⟩ | ⟨hsendable, rfl⟩
    · exact hes.outlined_append hwrites (hkey secret rfl) fun _ => hsingle hsendable
    · rw [List.append_nil]
      exact hnone _ (by simpa [IsFailedWrite] using hsendable)
  | creates secret stored emitted =>
    obtain ⟨gs, rest, hdoes, hrest, rfl⟩ := proceeds_cons_iff.1 hfs
    obtain rfl := proceeds_singleton_iff.1 hrest
    rw [List.append_nil]
    rcases hdoes with ⟨-, hwrites⟩ | ⟨-, rfl⟩
    · exact hes.outlined_append hwrites (hkey secret rfl) fun ⟨_, hfault⟩ => nomatch hfault
    · rw [List.append_nil]
      exact hnone _ (by simp [IsFailedWrite])
  | updateFails secret fault =>
    have hwrites := proceeds_singleton_iff.1 hfs
    exact hes.outlined_append hwrites (hkey secret rfl) fun _ => hsingle trivial
  | updates secret stored emitted =>
    obtain ⟨gs, rest, hdoes, hrest, rfl⟩ := proceeds_cons_iff.1 hfs
    obtain rfl := proceeds_singleton_iff.1 hrest
    rw [List.append_nil]
    exact hes.outlined_append hdoes (hkey secret rfl) fun ⟨_, hfault⟩ => nomatch hfault

/-- A synchronisation supplies all that is cached, and drops nothing but a mirror that it could not
write. -/
theorem outlined_of_conducts {conduct : List (Exchange Sync.collaborators (Fault τ))}
    {r : Except (Fault τ) Decision} (hconduct : Sync.Conducts {} conduct r)
    (h : Proceeds conduct es) : Outlined conduct es := by
  have hsource : Key.ofValues (.text Names.configNamespace) (.text Names.source) = .ok .source :=
    Key.ofValues_text _ _
  have htarget : Key.ofValues (.text Names.configNamespace) (.text Names.target) = .ok .target :=
    Key.ofValues_text _ _
  -- A conduct that ends before the decision consists of look-ups only.  After it there is at most
  -- one write, which is about the mirror.
  cases hconduct with
  | sourceFails fault =>
    have hfirst := proceeds_singleton_iff.1 h
    exact (hfirst .source hsource).onlyLooksUp.outlined (by simp [IsFailedWrite])
  | sourceAbsent =>
    have hfirst := proceeds_singleton_iff.1 h
    exact (hfirst .source hsource).onlyLooksUp.outlined (by simp [IsFailedWrite])
  | targetFails source fault =>
    obtain ⟨gs, rest, hfirst, hrest, rfl⟩ := proceeds_cons_iff.1 h
    have hsecond := proceeds_singleton_iff.1 hrest
    exact ((hfirst .source hsource).onlyLooksUp.append
      (hsecond .target htarget).onlyLooksUp).outlined (by simp [IsFailedWrite])
  | undecided hdata hdecide =>
    obtain ⟨gs, rest, hfirst, hrest, rfl⟩ := proceeds_cons_iff.1 h
    have hsecond := proceeds_singleton_iff.1 hrest
    exact ((hfirst .source hsource).onlyLooksUp.append
      (hsecond .target htarget).onlyLooksUp).outlined (by simp [IsFailedWrite])
  | @decided source target decision us r hdecide hexecutes =>
    obtain ⟨gs, rest, hfirst, hrest, rfl⟩ := proceeds_cons_iff.1 h
    obtain ⟨hs, fs, hsecond, hfs, rfl⟩ := proceeds_cons_iff.1 hrest
    have hlooked : LooksUp .source gs (.ok (some source)) := hfirst .source hsource
    have hfound : LooksUp .target hs (.ok target) := hsecond .target htarget
    have hdecides := decides_of_decide hdecide
    have hkey : ∀ secret, decision.secret? = some secret → secret.key = .ok .target :=
      fun secret => key_of_decides hdecides (hlooked.own source rfl)
        fun t ht => hfound.own t (congrArg Except.ok ht)
    have houtlined := outlined_of_executes
      [⟨.lookUp (.text Names.configNamespace) (.text Names.source), .ok (some source)⟩,
        ⟨.lookUp (.text Names.configNamespace) (.text Names.target), .ok target⟩] hkey
      (by simp [IsFailedWrite]) (hlooked.onlyLooksUp.append hfound.onlyLooksUp) hexecutes hfs
    rw [List.append_assoc] at houtlined
    exact houtlined

end SecretMirror.Operator
