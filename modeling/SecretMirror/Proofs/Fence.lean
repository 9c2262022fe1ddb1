import SecretMirror.Proofs.CacheView
import SecretMirror.Proofs.ExactTime
import SecretMirror.Proofs.Fence.Activities
import Mathlib.Tactic.NormNum

/-!
# Nobody else's secret is replaced

The operator decides on copies that may be old, so what it replaces need not be what it looked at.
Only the version that a copy carries connects the two.  The invariant is that the cache holds
genuine copies and that the server holds what was once stored (`Watched`); every answer of the
cluster keeps it (`watched_answers`), and so does whatever other clients do (`watched_interferes`).
Since every activity keeps the fence, what is sent as a replacement is fenced at that moment, and
the server takes it only in place of the very record that bears the marker (`replaces_of_fenced`).
-/

namespace SecretMirror

open Operator Interleaving
open Program hiding bind ask

/-- Nothing is cached yet, the versions form an archive, and whatever is stored is one of them.
Objects, marked or not, may be there already. -/
structure SharedCluster.IsFresh {τ : Type} (s : SharedCluster τ) : Prop where
  cache : s.cache.slots = []
  archive : IsArchive s.versions
  objects : ∀ key w, s.objects key = some w → w ∈ s.versions

/-- A record was replaced under a key by one that agrees with it beside the data, and it bore the
marker of the operator.  Nothing else has changed in the store. -/
def SharedCluster.Replaces {τ : Type} (s : SharedCluster τ) (key : Key) (t : SharedCluster τ) :
    Prop :=
  ∃ old new, s.objects key = some old ∧ t.objects key = some new ∧
    old.BearsMarker ∧ old.AgreesBesideData new ∧
    ∀ other, other ≠ key → t.objects other = s.objects other

namespace Fence

variable {τ : Type} [Time τ]

/-! ## The invariant -/

/-- What is cached is genuine, and what is stored is among all that was ever stored.  This is the
invariant that carries the fence through a run. -/
structure Watched (s : SharedCluster τ) : Prop where
  archive : IsArchive s.versions
  cached : ∀ key e, s.cache.find? key = some e → Genuine s.versions e.secret
  objects : ∀ key w, s.objects key = some w → w ∈ s.versions

omit [Time τ] in
theorem watched_of_isFresh {s : SharedCluster τ} (h : s.IsFresh) : Watched s where
  archive := h.archive
  cached key e he := by simp [Cache.find?, h.cache, Cache.lookup] at he
  objects := h.objects

omit [Time τ] in
theorem watched_stores {s t : SharedCluster τ} {key : Key} {w : WireSecret} (hs : Watched s)
    (h : s.Stores key w t) : Watched t ∧ s.versions ⊆ t.versions ∧ w ∈ t.versions := by
  obtain ⟨harchive, rfl⟩ := h
  refine ⟨⟨harchive, fun k e he => ?_, fun k v hv => ?_⟩, Set.subset_insert _ _,
    Set.mem_insert _ _⟩
  · exact (hs.cached k e he).mono (Set.subset_insert _ _)
  · dsimp only at hv
    split at hv
    · cases hv
      exact Set.mem_insert _ _
    · exact Set.mem_insert_of_mem _ (hs.objects k v hv)

omit [Time τ] in
/-- A change of the cache keeps the invariant if every entry was there before or is genuine. -/
theorem watched_caches {s t : SharedCluster τ} {r : Except Malformed (Cache τ)}
    {a : Except (Fault τ) Unit} (hs : Watched s) (h : s.Caches r a t)
    (hr : ∀ cache, r = .ok cache → ∀ key e, cache.find? key = some e →
      s.cache.find? key = some e ∨ Genuine s.versions e.secret) :
    Watched t ∧ s.versions ⊆ t.versions := by
  cases r with
  | error m =>
    obtain ⟨-, rfl⟩ := h
    exact ⟨hs, subset_rfl⟩
  | ok cache =>
    obtain ⟨-, rfl⟩ := h
    refine ⟨⟨hs.archive, fun key e he => ?_, hs.objects⟩, subset_rfl⟩
    rcases hr cache rfl key e he with hbefore | hgenuine
    · exact hs.cached key e hbefore
    · exact hgenuine

omit [Time τ] in
/-- Other clients keep the invariant, since what they store is added to the versions. -/
theorem watched_interferes {s t : SharedCluster τ} (hs : Watched s) (h : s.Interferes t) :
    Watched t ∧ s.versions ⊆ t.versions := by
  rcases h with ⟨key, w, hstores⟩ | ⟨key, rfl⟩
  · obtain ⟨ht, hle, -⟩ := watched_stores hs hstores
    exact ⟨ht, hle⟩
  · refine ⟨⟨hs.archive, hs.cached, fun k w hw => ?_⟩, subset_rfl⟩
    dsimp only at hw
    split at hw
    · cases hw
    · exact hs.objects k w hw

omit [Time τ] in
/-- A write keeps the invariant and answers with a sound record, or not at all. -/
theorem watched_write {s t : SharedCluster τ} {key : Key} {body stored : WireSecret}
    {a : Except (Fault τ) (Option WireSecret)} (hs : Watched s)
    (heffect : s.TakesEffect key body stored t) (hanswer : SharedCluster.AnswersWith stored a) :
    Watched t ∧ s.versions ≤ t.versions ∧
      ∀ r, a = .ok r → ∃ w ∈ t.versions, w.IsSound ∧ r = some w := by
  obtain ⟨-, hstores⟩ := heffect
  obtain ⟨ht, hle, hmem⟩ := watched_stores hs hstores
  exact ⟨ht, hle, fun r hr => ⟨stored, hmem, ht.archive.sound stored hmem, hanswer r hr⟩⟩

/-- Every answer to what the fence permits keeps the invariant and is one the fence expects. -/
theorem watched_answers {s t : SharedCluster τ} {q : (requests τ).Request}
    {a : Except (Fault τ) ((requests τ).Answer q)} (hs : Watched s)
    (hq : (fence τ).permits s.versions q) (ha : s.Answers q a t) :
    Watched t ∧ s.versions ≤ t.versions ∧ (fence τ).expects t.versions q a := by
  -- Only caching and writing bring anything in, and both are fenced; the other requests have
  -- nothing to show but that their answers are expected.
  cases q with
  | cacheGet key =>
    obtain ⟨now, rfl, rfl⟩ := ha
    refine ⟨⟨hs.archive, fun k e he => ?_, hs.objects⟩, le_rfl, fun secret hsecret => ?_⟩
    · exact hs.cached k e (s.cache.find?_of_find?_get key now he)
    · obtain ⟨e, he, -, rfl⟩ := s.cache.find?_of_get key now (Except.ok.inj hsecret)
      exact hs.cached key e he
  | cachePut secret =>
    obtain ⟨now, hcaches⟩ := ha
    have hput : ∀ cache, s.cache.putOwn secret now = .ok cache → ∀ k e,
        cache.find? k = some e → s.cache.find? k = some e ∨ Genuine s.versions e.secret := by
      intro cache hcache k e he
      rcases Cache.find?_of_putOwn hcache he with hbefore | rfl
      · exact .inl hbefore
      · exact .inr hq
    obtain ⟨ht, hle⟩ := watched_caches hs hcaches hput
    exact ⟨ht, hle, trivial⟩
  | cacheForget space name =>
    obtain ⟨ht, hle⟩ := watched_caches hs ha fun cache hcache k e he =>
      .inl (Cache.find?_of_forgetValues hcache he)
    exact ⟨ht, hle, trivial⟩
  | read space name =>
    obtain ⟨rfl, hread⟩ := ha
    refine ⟨hs, le_rfl, fun w hw => ?_⟩
    obtain ⟨key, -, hobject⟩ := hread w hw
    exact ⟨hs.objects key w hobject, hs.archive.sound w (hs.objects key w hobject)⟩
  | create space body =>
    rcases ha with ⟨⟨fault, rfl⟩, rfl⟩ | ⟨key, stored, -, -, heffect, hanswer⟩
    · exact ⟨hs, le_rfl, nofun⟩
    · exact watched_write hs heffect hanswer
  | replace space name body =>
    rcases ha with ⟨⟨fault, rfl⟩, rfl⟩ | ⟨key, old, stored, -, -, -, heffect, hanswer⟩
    · exact ⟨hs, le_rfl, nofun⟩
    · exact watched_write hs heffect hanswer
  | _ =>
    obtain rfl := ha
    exact ⟨hs, le_rfl, trivial⟩

theorem upholds_fence :
    Upholds (SharedCluster.medium (τ := τ)) (fence τ) SharedCluster.versions Watched where
  answers := watched_answers
  interferes := watched_interferes
  starts := by
    rintro s p hs ⟨activity, hinformed, rfl⟩
    exact behaves_activity activity hs.archive hinformed

/-! ## Replacements -/

omit [Time τ] in
/-- What the server takes in place of a record is fenced for that very record.  The server compares
versions, and an archive binds each version of a key to one record. -/
theorem replaces_of_fenced {s t : SharedCluster τ} {key : Key} {old body stored : WireSecret}
    (hs : Watched s) (hbody : Fenced s.versions body) (hold : s.objects key = some old)
    (hversion : body.metadata.resourceVersion.same old.metadata.resourceVersion = true)
    (heffect : s.TakesEffect key body stored t) : s.Replaces key t := by
  obtain ⟨w, hw, hbears, hagrees, hsame⟩ := hbody
  obtain rfl : w = old := by
    rw [hsame] at hversion
    exact hs.archive.distinct w hw old (hs.objects key old hold) hversion
  obtain ⟨⟨version, rfl⟩, -, rfl⟩ := heffect
  refine ⟨w, body.withVersion version, hold, by simp, hbears, ?_, fun other hother => ?_⟩
  · exact ⟨hagrees.name, hagrees.space, hagrees.annotations, hagrees.labels, hagrees.finalizers,
      hagrees.type, hagrees.uid, hagrees.ownerReferences⟩
  · simp [hother]

/-! ## A mirror that lost its data -/

theorem follows_spaced {α : Type} {rate time last : τ} (start : τ) {call q : Task τ α}
    {xs : List (Exchange (requests τ) (Fault τ))} (hrate : Time.isZero rate = false)
    (hwait : RateLimit.wait? (1 / rate) time last = none) (h : call.Follows xs q) :
    (spaced rate call).Follows (⟨.now, .ok time⟩ :: ⟨.lastCall, .ok last⟩ :: ⟨.now, .ok start⟩ ::
      ⟨.recordCall start, .ok ()⟩ :: xs) q := by
  have hspacing : RateLimit.spacing rate = .ok (1 / rate) := by
    simp [RateLimit.spacing, hrate]
  unfold spaced takeTurn
  rw [hspacing]
  refine .next (.next ?_)
  simp only [outcome_done, resume_ok, hwait]
  exact .next (.next h)

theorem run_observe {s : SharedCluster τ} {ps : List (Task τ Unit)} {w : WireSecret}
    {secret : Secret} {cache : Cache τ} (hw : w ∈ s.versions) (hread : Secret.ofWire w = .ok secret)
    (now : τ) (hput : s.cache.putOwn secret now = .ok cache) :
    ∃ es, Run SharedCluster.medium ⟨s, ps⟩ es
      ⟨{ s with cache := cache }, ps ++ [.done (.ok ())]⟩ := by
  have hprogram : (Activity.observe .null w.toValue .null .null).program =
      (ask (.cachePut secret) : Task τ Unit) := by
    have hbody : Secret.ofBody w.toValue = .ok secret := by
      rw [Secret.ofBody_of_shows w.shows_toValue, hread]
    show Operator.observe _ _ _ _ = _
    rw [Operator.observe, if_neg (by simp [Value.text?]), hbody]
    rfl
  have hanswer : s.Answers (.cachePut secret) (.ok ()) { s with cache := cache } :=
    ⟨now, by rw [hput]; exact ⟨rfl, rfl⟩⟩
  have hstart : Step SharedCluster.medium ⟨s, ps⟩ _ ⟨s, ps ++ [ask (.cachePut secret)]⟩ :=
    .start ⟨.observe .null w.toValue .null .null, ⟨w, hw, w.shows_toValue⟩, hprogram.symm⟩
  have hlast : (ps ++ [(ask (.cachePut secret) : Task τ Unit)])[ps.length]? =
      some (ask (.cachePut secret)) := List.getElem?_concat_length
  have hdone := Step.answer (m := SharedCluster.medium) hlast hanswer
  rw [List.set_append_right _ _ le_rfl, Nat.sub_self] at hdone
  exact ⟨_, .step hstart (.step hdone (.stay _))⟩

namespace Drift

open Example

/-- A mirror without its data, with labels that are there but empty. -/
def mirror : WireSecret where
  metadata := {
    name := .text Names.target
    space := .text Names.configNamespace
    annotations := .object [(Names.managedBy, .text Names.manager)]
    labels := .object []
    resourceVersion := .text "2" }

/-- What is sent in place of the mirror. -/
def body : WireSecret where
  apiVersion := .text "v1"
  kind := .text "Secret"
  metadata := {
    name := .text Names.target
    space := .text Names.configNamespace
    annotations := .object [(Names.managedBy, .text Names.manager)]
    resourceVersion := .text "2" }
  data := .object [("key", .text "AQ==")]

/-- What is stored in place of the mirror. -/
def stored : WireSecret := body.withVersion (.text "3")

/-- The mirror as it is read. -/
def target : Secret where
  name := .text Names.target
  space := .text Names.configNamespace
  annotations := .object [(Names.managedBy, .text Names.manager)]
  resourceVersion := .text "2"

/-- A cluster with both secrets, of which nothing is cached. -/
def shared : SharedCluster ℚ where
  cache := { ttl := 30 }
  objects key := if key = Key.source then some canonical
    else if key = Key.target then some mirror else none
  versions := {canonical, mirror}

/-- The cluster after both secrets were seen by the watch. -/
def observed : SharedCluster ℚ :=
  { shared with cache := (shared.cache.put Key.source source 0).put Key.target target 0 }

/-- The cluster after the replacement. -/
def replaced : SharedCluster ℚ :=
  { observed with
    objects := fun key => if key = Key.target then some stored else observed.objects key
    versions := insert stored observed.versions }

theorem isArchive_replaced : IsArchive replaced.versions where
  sound w hw := by
    rcases hw with rfl | rfl | rfl
    · exact ⟨nofun, .inr ⟨_, rfl⟩, .inl rfl, .inl rfl, .inl rfl, _, rfl⟩
    · exact ⟨nofun, .inl rfl, .inl rfl, .inl rfl, .inl rfl, _, rfl⟩
    · exact ⟨nofun, .inr ⟨_, rfl⟩, .inr ⟨_, rfl⟩, .inl rfl, .inl rfl, _, rfl⟩
  distinct v hv w hw h := by
    rcases hv with rfl | rfl | rfl <;> rcases hw with rfl | rfl | rfl <;> first | rfl | cases h

theorem isFresh_shared : shared.IsFresh where
  cache := rfl
  archive := {
    sound := fun w hw => isArchive_replaced.sound w (.inr hw)
    distinct := fun v hv w hw => isArchive_replaced.distinct v (.inr hv) w (.inr hw) }
  objects key w h := by
    simp only [shared] at h
    split at h
    · cases h
      exact .inl rfl
    · split at h
      · cases h
        exact .inr rfl
      · cases h

/-- What a synchronisation goes through before the replacement when both secrets are cached. -/
def exchanges : List (Exchange (requests ℚ) (Fault ℚ)) :=
  let hit : Exchange (requests ℚ) (Fault ℚ) :=
    ⟨.measure (.add (.apiCalls "get_secret" "cache_hit") 1), .ok ()⟩
  [⟨.cacheGet Key.source, .ok source⟩, hit, ⟨.cacheGet Key.target, .ok target⟩, hit,
    ⟨.now, .ok 0⟩, ⟨.now, .ok 100⟩, ⟨.lastCall, .ok 0⟩, ⟨.now, .ok 100⟩,
    ⟨.recordCall 100, .ok ()⟩]

theorem follows_exchanges : ∃ next, (Activity.sync (8 : ℚ) {}).program.Follows exchanges
    (.ask (.replace (.text Names.configNamespace) (.text Names.target) body) next) := by
  have hwait : RateLimit.wait? (1 / 8 : ℚ) 100 0 = none := by norm_num [RateLimit.wait?]
  have hspaced : ∀ {α : Type} (call : Task ℚ α), (spaced 8 call).Follows _ call :=
    fun call => follows_spaced 100 rfl hwait (.none call)
  refine ⟨?next, ?follows⟩
  case follows =>
    iterate 5 refine .next ?_
    exact .within (.within (.within (.within (.within (hspaced _) _) _) _) _) _

/-- A cluster where both secrets are cached may answer like this. -/
theorem grants_exchanges : SharedCluster.medium.Grants observed exchanges observed := by
  have hget : ∀ {key e}, observed.cache.find? key = some e → e.storedAt = 0 →
      SharedCluster.medium.answers (.cacheGet key) observed (.ok (some e.secret)) observed := by
    intro key e he hstored
    have hfresh : ¬ observed.cache.ttl < 0 - e.storedAt := by
      rw [hstored]
      show ¬ (30 : ℚ) < 0 - 0
      norm_num
    refine ⟨0, ?_, ?_⟩ <;> rw [Cache.get_of_find? _ _ _ he hfresh]
  refine .next (hget (e := ⟨source, 0⟩) rfl rfl) (.next rfl ?_)
  refine .next (hget (e := ⟨target, 0⟩) rfl rfl) (.next rfl ?_)
  exact .next rfl (.next rfl (.next rfl (.next rfl (.next rfl (.none _)))))

/-- Both secrets are seen, and a synchronisation comes to the point where it sends a replacement. -/
theorem run_to_replacement : ∃ es next, Run SharedCluster.medium ⟨shared, []⟩ es
    ⟨observed, [.done (.ok ()), .done (.ok ()),
      .ask (.replace (.text Names.configNamespace) (.text Names.target) body) next]⟩ := by
  obtain ⟨next, hfollows⟩ := follows_exchanges
  obtain ⟨es₁, hsource⟩ : ∃ es, Run SharedCluster.medium ⟨shared, []⟩ es
      ⟨{ shared with cache := shared.cache.put Key.source source 0 }, [.done (.ok ())]⟩ :=
    run_observe (.inl rfl) rfl 0 rfl
  obtain ⟨es₂, htarget⟩ : ∃ es, Run SharedCluster.medium
      ⟨{ shared with cache := shared.cache.put Key.source source 0 }, [.done (.ok ())]⟩ es
      ⟨observed, [.done (.ok ()), .done (.ok ())]⟩ :=
    run_observe (w := mirror) (.inr rfl) rfl 0 rfl
  have hstart : Step SharedCluster.medium ⟨observed, [.done (.ok ()), .done (.ok ())]⟩ _
      ⟨observed, [.done (.ok ()), .done (.ok ()), (Activity.sync 8 {}).program]⟩ :=
    .start ⟨.sync 8 {}, trivial, rfl⟩
  have hrun : Run SharedCluster.medium
      ⟨observed, [.done (.ok ()), .done (.ok ()), (Activity.sync 8 {}).program]⟩ _ _ :=
    Run.along (i := 2) rfl hfollows grants_exchanges
  exact ⟨_, next, hsource.append (htarget.append (.step hstart hrun))⟩

theorem step_replacement
    {next : Except (Fault ℚ) (Option WireSecret) → Task ℚ Unit} :
    Step SharedCluster.medium
      ⟨observed, [.done (.ok ()), .done (.ok ()),
        .ask (.replace (.text Names.configNamespace) (.text Names.target) body) next]⟩
      (.answered 2 ⟨.replace (.text Names.configNamespace) (.text Names.target) body,
        .ok (some stored)⟩)
      ⟨replaced, [.done (.ok ()), .done (.ok ()), next (.ok (some stored))]⟩ := by
  have hanswer : observed.Answers
      (.replace (.text Names.configNamespace) (.text Names.target) body) (.ok (some stored))
      replaced :=
    .inr ⟨Key.target, mirror, _, rfl, rfl, rfl, ⟨⟨_, rfl⟩, isArchive_replaced, rfl⟩,
      fun r hr => (Except.ok.inj hr).symm⟩
  exact .answer rfl hanswer

end Drift

/-! ## Any interleaving -/

/-- However the activities of the operator and other clients interleave, a replacement that the
operator sends fails without effect, or what it replaces bore the operator's marker and only its
data change, whether the answer arrives or not. -/
theorem replacement_respects_owner {P Q R : Pool (requests τ) (Fault τ) (SharedCluster τ)}
    {es : List (Interleaving.Event (requests τ) (Fault τ))} (hfresh : P.shared.IsFresh)
    (hidle : P.threads = []) (hrun : Run SharedCluster.medium P es Q) {i : Nat} {space name : Value}
    {body : WireSecret} {a : Except (Fault τ) (Option WireSecret)}
    (hstep : Step SharedCluster.medium Q (.answered i ⟨.replace space name body, a⟩) R) :
    ((∃ fault, a = .error fault) ∧ R.shared = Q.shared) ∨
      ∃ key, Key.ofValues space name = .ok key ∧ Q.shared.Replaces key R.shared ∧
        ∀ r, a = .ok r → r = R.shared.objects key := by
  have hsound : Sound (fence τ) SharedCluster.versions Watched P :=
    ⟨watched_of_isFresh hfresh, by simp [hidle]⟩
  have hQ := upholds_fence.run hsound hrun
  cases hstep with
  | answer hi ha =>
    have hbody : Fenced _ body := Upholds.permitted hQ hi
    rcases ha with hfails | ⟨key, old, stored, hkey, hold, hversion, heffect, hanswer⟩
    · exact .inl hfails
    · refine .inr ⟨key, hkey, replaces_of_fenced hQ.1 hbody hold hversion heffect, ?_⟩
      obtain ⟨-, -, rfl⟩ := heffect
      intro r hr
      rw [hanswer r hr]
      simp

/-- A mirror that lost its data gets them back by a replacement, and it bore the marker. -/
theorem replacement_respects_owner_after_drift :
    ∃ (Q R : Pool (requests ℚ) (Fault ℚ) (SharedCluster ℚ)) (es : List (Interleaving.Event _ _)),
      Run SharedCluster.medium ⟨Drift.shared, []⟩ es Q ∧
      Step SharedCluster.medium Q (.answered 2 ⟨.replace (.text Names.configNamespace)
        (.text Names.target) Drift.body, .ok (some Drift.stored)⟩) R ∧
      Q.shared.Replaces Key.target R.shared := by
  obtain ⟨es, next, hrun⟩ := Drift.run_to_replacement
  refine ⟨_, _, es, hrun, Drift.step_replacement, ?_⟩
  rcases replacement_respects_owner Drift.isFresh_shared rfl hrun Drift.step_replacement with
    ⟨⟨_, hfault⟩, -⟩ | ⟨key, hkey, hreplaces, -⟩
  · cases hfault
  · cases hkey
    exact hreplaces

/-- Sections are not always kept to the letter: labels that are there but empty are sent as null,
since `to_k8s` sends null in place of every empty section. -/
theorem replacement_nulls_empty_labels :
    ∃ (Q R : Pool (requests ℚ) (Fault ℚ) (SharedCluster ℚ)) (es : List (Interleaving.Event _ _)),
      Run SharedCluster.medium ⟨Drift.shared, []⟩ es Q ∧
      Step SharedCluster.medium Q (.answered 2 ⟨.replace (.text Names.configNamespace)
        (.text Names.target) Drift.body, .ok (some Drift.stored)⟩) R ∧
      ∃ old new, Q.shared.objects Key.target = some old ∧
        R.shared.objects Key.target = some new ∧
        old.metadata.labels = .object [] ∧ new.metadata.labels = .null := by
  obtain ⟨es, next, hrun⟩ := Drift.run_to_replacement
  exact ⟨_, _, es, hrun, Drift.step_replacement, _, _, rfl, rfl, rfl, rfl⟩

end Fence

end SecretMirror
