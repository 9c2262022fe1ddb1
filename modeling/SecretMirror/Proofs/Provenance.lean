import SecretMirror.Proofs.UntrustedCluster.Absence
import SecretMirror.Proofs.UntrustedCluster.Writes

/-!
# Where what is written comes from

Two facts about everything that the operator writes, whatever it runs among: watch events with any
bodies, calls that fail or answer what is not stored, others who change the store at any moment, any
number of activities side by side.

* Writes are addressed to the mirror, and nothing else changes by the operator
  (`UntrustedCluster.writes_only_mirror`).
* What is written was the data of a canonical secret that was read, or told by a watch event.  The
  run that writes has read it itself, or else it was put into the cache at most the time to live
  before that run asked the cache for it.  A run that was told that there is no canonical secret
  writes nothing (`UntrustedCluster.writes_are_fresh`).

Both are read off what the writing activity has learnt by then (`UntrustedCluster.permitted`).  A
copy that it has taken from the cache leads to the activity that put it there, and to what that one
had learnt.
-/

namespace SecretMirror.UntrustedCluster

open Operator Interleaving
open Program hiding bind ask

variable {τ : Type} [Time τ] {start : UntrustedCluster τ}
  {P Q : Pool (requests τ) (Fault τ) (UntrustedCluster τ)}
  {es : List (Interleaving.Event (requests τ) (Fault τ))} {i : Nat}
  {x : Exchange (requests τ) (Fault τ)}

/-! ## A server without secrets -/

namespace Example

/-- Answers a request where the clock stands still and the server has no secrets and stores none. -/
def answer : (q : (requests ℚ).Request) → UntrustedCluster ℚ →
    Except (Fault ℚ) ((requests ℚ).Answer q) × UntrustedCluster ℚ
  | .now, s => (.ok s.clock, s)
  | .sleep _, s => (.ok (), s)
  | .lastCall, s => (.ok 0, s)
  | .recordCall _, s => (.ok (), s)
  | .cacheGet key, s =>
    (.ok (s.cache.get key s.clock).1, { s with cache := (s.cache.get key s.clock).2 })
  | .cachePut secret, s =>
    match s.cache.putOwn secret s.clock with
    | .ok cache => (.ok (), { s with cache := cache })
    | .error reason => (.error (.malformed reason), s)
  | .cacheForget space name, s =>
    match s.cache.forgetValues space name with
    | .ok cache => (.ok (), { s with cache := cache })
    | .error reason => (.error (.malformed reason), s)
  | .read .., s => (.error Cluster.Refusal.notFound.fault, s)
  | .create .., s => (.ok none, s)
  | .replace .., s => (.error Cluster.Refusal.notFound.fault, s)
  | .clusterConfig, s => (.ok (), s)
  | .fileConfig, s => (.ok (), s)
  | .measure _, s => (.ok (), s)
  | .log _, s => (.ok (), s)
  | .post _, s => (.ok (), s)
  | .schedule _, s => (.error .rateIsZero, s)

theorem answers_answer (q : (requests ℚ).Request) (s : UntrustedCluster ℚ) :
    Answers q s (answer q s).1 (answer q s).2 := by
  have hwaits : s.Waits s := ⟨Time.le_refl _, rfl⟩
  cases q with
  | cacheGet key => exact ⟨rfl, rfl⟩
  | cachePut secret =>
    simp only [Answers, Caches, answer]
    cases s.cache.putOwn secret s.clock <;> exact ⟨rfl, rfl⟩
  | cacheForget space name =>
    simp only [Answers, Caches, answer]
    cases s.cache.forgetValues space name <;> exact ⟨rfl, rfl⟩
  | read space name => exact ⟨hwaits, rfl, nofun⟩
  | create space body => exact ⟨hwaits, fun _ _ => rfl, nofun⟩
  | replace space name body => exact ⟨hwaits, fun _ _ => rfl, nofun⟩
  | _ => exact ⟨hwaits, rfl⟩

/-- Nothing is cached at first. -/
def first : UntrustedCluster ℚ where
  clock := 100
  cache := { ttl := 60 }
  objects := fun _ => none

/-- The handling of an event that shows the canonical secret. -/
def activity : Activity ℚ :=
  .handle ⟨8, 5, ⟨300, 30⟩⟩ (.text "MODIFIED") SecretMirror.Example.canonical.toValue
    (.text Names.source) (.text Names.configNamespace)

set_option maxRecDepth 10000 in
theorem any_write :
    (activity.program.trace answer first).any (fun x => x.request.write?.isSome) = true := by
  with_unfolding_all decide +kernel

/-- The event leads to a write. -/
theorem exists_write : ∃ es P Q x w, Run medium ⟨first, []⟩ es P ∧
    Step medium P (.answered 0 x) Q ∧ x.request.write? = some w := by
  obtain ⟨x, hx, hwrite⟩ := List.any_eq_true.1 any_write
  obtain ⟨w, hw⟩ := Option.isSome_iff_exists.1 hwrite
  have hi : [activity.program][0]? = some activity.program := rfl
  obtain ⟨es, P, Q, hrun, hs⟩ := exists_step_of_mem_trace (m := medium) answers_answer hi hx
  have hstart : Step medium ⟨first, []⟩ (.started activity.program)
      ⟨first, [activity.program]⟩ := .start ⟨activity, trivial, rfl⟩
  exact ⟨_, P, Q, x, w, .step hstart hrun, hs, hw⟩

end Example

/-! ## What an activity has learnt -/

/-- What a thread is about to ask follows from what it has learnt by its exchanges so far.  Nothing
is assumed of the answers, so no state of the server comes in. -/
theorem permitted (hempty : start.cache.slots = []) (hrun : Run medium ⟨start, []⟩ es P)
    (hs : Step medium P (.answered i x) Q) : ∃ activity : Activity τ,
      (begun es)[i]? = some activity.program ∧
        (sourcedWrites activity.Tells).permits {y | y ∈ exchanges i es} x.request := by
  obtain ⟨next, hi, -, -⟩ := hs.exists_asking
  obtain ⟨_, _, hbegun, ⟨activity, hwatched, rfl⟩, hfollows⟩ := hrun.exists_begun hi
  have hbehaves := (behaves_activity hwatched).of_follows (c := sourcedWrites activity.Tells)
    (H := IsHonest) (fun _ _ _ hmem hhonest => ⟨hmem, hhonest⟩) hfollows
    fun y hy => isHonest_of_mem hempty hrun hy
  rw [Set.empty_union] at hbehaves
  exact ⟨activity, hbegun, (hbehaves _ le_rfl).1⟩

/-- What is sent is addressed to the mirror and carries what the activity has found. -/
theorem permitted_write (hempty : start.cache.slots = []) (hrun : Run medium ⟨start, []⟩ es P)
    (hs : Step medium P (.answered i x) Q) {w : Write} (hwrite : x.request.write? = some w) :
    w.IsToMirror ∧ ∃ s, Found {y | y ∈ exchanges i es} .source s ∧ w.body.Carries s := by
  obtain ⟨activity, -, hpermits⟩ := permitted hempty hrun hs
  obtain ⟨q, a⟩ := x
  cases q with
  | create space body => exact hpermits w hwrite
  | replace space name body => exact hpermits w hwrite
  | _ => cases hwrite

/-! ## The place of writes -/

/-- All that is cached lies under its own key.  What is sent is addressed to the mirror, and no
activity changes anything else that is stored.  Nothing is assumed of the server but that it answers
about what was asked for, and nothing of the bodies of watch events. -/
theorem writes_only_mirror (hempty : start.cache.slots = []) (hrun : Run medium ⟨start, []⟩ es P)
    {e : Interleaving.Event (requests τ) (Fault τ)} (hs : Step medium P e Q) :
    P.shared.IsFiled ∧ ∀ i x, e = .answered i x →
      (∀ w, x.request.write? = some w → w.IsToMirror) ∧
        ∀ key, key ≠ .target → Q.shared.objects key = P.shared.objects key := by
  refine ⟨isFiled_of_run hempty hrun, ?_⟩
  rintro i x rfl
  have hwatched : ∀ w, x.request.write? = some w → w.IsToMirror := fun w hwrite =>
    (permitted_write hempty hrun hs hwrite).1
  refine ⟨hwatched, fun key hkey => ?_⟩
  obtain ⟨next, -, hanswers, -⟩ := hs.exists_asking
  refine Answers.objects hanswers fun w hwrite haddress => hkey ?_
  rw [(hwatched w hwrite).space, (hwatched w hwrite).name] at haddress
  exact (Except.ok.inj haddress).symm

/-- It is so with the write that an event leads to. -/
theorem writes_only_mirror_after_event : ∃ P Q x w, Example.first.cache.slots = [] ∧
    (∃ es, Run medium ⟨Example.first, []⟩ es P) ∧ Step medium P (.answered 0 x) Q ∧
      x.request.write? = some w ∧ P.shared.IsFiled ∧ w.IsToMirror ∧
        ∀ key, key ≠ .target → Q.shared.objects key = P.shared.objects key := by
  obtain ⟨es, P, Q, x, w, hrun, hs, hwrite⟩ := Example.exists_write
  obtain ⟨hfiled, hstep⟩ := writes_only_mirror rfl hrun hs
  obtain ⟨hwatched, hspared⟩ := hstep 0 x rfl
  exact ⟨P, Q, x, w, rfl, ⟨es, hrun⟩, hs, hwrite, hfiled, hwatched w hwrite, hspared⟩

/-! ## The age of what is written -/

/-- A thread has read the canonical secret, or handles a watch event that tells of it. -/
def Brings (es : List (Interleaving.Event (requests τ) (Fault τ))) (i : Nat) (s : Secret) : Prop :=
  HasRead {y | y ∈ exchanges i es} .source s ∨
    ∃ activity : Activity τ, (begun es)[i]? = some activity.program ∧ activity.Tells s

/-- A thread has read the canonical secret itself, or has found it in the cache, where it was put at
most the time to live before. -/
inductive IsFresh (start : UntrustedCluster τ)
    (es : List (Interleaving.Event (requests τ) (Fault τ)))
    (P : Pool (requests τ) (Fault τ) (UntrustedCluster τ)) (i : Nat) (s : Secret) : Prop where
  | read (hread : HasRead {y | y ∈ exchanges i es} .source s)
  | cached {fs gs : List (Interleaving.Event (requests τ) (Fault τ))}
    {X Y : Pool (requests τ) (Fault τ) (UntrustedCluster τ)} {j : Nat}
    (hfound : Occurs medium ⟨start, []⟩ es P fs X (.answered i ⟨.cacheGet .source, .ok (some s)⟩))
    (hput : Occurs medium ⟨start, []⟩ fs X gs Y (.answered j ⟨.cachePut s, .ok ()⟩))
    (hbrings : Brings gs j s) (hbefore : Y.shared.clock ≤ X.shared.clock)
    (hage : X.shared.clock - Y.shared.clock ≤ start.cache.ttl)

/-- A copy of the canonical secret is cached by a thread that brings it. -/
theorem brings_of_put (hempty : start.cache.slots = []) (hrun : Run medium ⟨start, []⟩ es P)
    {s : Secret} (hkey : s.key = .ok .source)
    (hs : Step medium P (.answered i ⟨.cachePut s, .ok ()⟩) Q) : Brings es i s := by
  obtain ⟨activity, hbegun, hpermits⟩ := permitted hempty hrun hs
  rcases hpermits hkey with hread | htells
  · exact .inl hread
  · exact .inr ⟨activity, hbegun, htells⟩

variable [Time.IsExact τ]

/-- What was found in the cache was put there at most the time to live before.  What is put is
stamped with the time of the clock, which does not go back. -/
theorem fresh_of_found (hempty : start.cache.slots = []) (hrun : Run medium ⟨start, []⟩ es P)
    {s : Secret} (hfound : Found {y | y ∈ exchanges i es} .source s) :
    s.key = .ok .source ∧ IsFresh start es P i s := by
  rcases hfound.cases with hget | hread
  · obtain ⟨fs, X, hoccurs⟩ := hrun.exists_occurs (mem_exchanges_iff.1 hget)
    have ⟨hbefore, _, _, hs, _, _⟩ := hoccurs
    obtain ⟨_, -, hanswers, -⟩ := hs.exists_asking
    obtain ⟨e, he, hexpired, rfl⟩ := Cache.find?_of_get _ _ _ (Except.ok.inj hanswers.1).symm
    obtain ⟨hkey, gs, Z, j, hput, hclock⟩ := exists_put hempty hbefore _ _ he
    have ⟨hputBefore, _, _, hsPut, hsince, _⟩ := hput
    have hpassed : start.cache.ttl = X.shared.cache.ttl := (passes_of_run hbefore).1.symm
    have hle : Z.shared.clock ≤ X.shared.clock :=
      (passes_of_run (.step hsPut hsince)).2
    refine ⟨hkey, .cached hoccurs hput (brings_of_put hempty hputBefore hkey hsPut) hle ?_⟩
    rw [hclock, hpassed]
    exact Time.IsExact.not_lt.1 (of_decide_eq_false hexpired)
  · refine ⟨?_, .read hread⟩
    obtain ⟨space, name, w, hmem, hkey, hofWire⟩ := hread
    rw [Secret.key_of_ofWire hofWire]
    exact (isHonest_of_mem hempty hrun hmem).trans hkey

/-- What is sent carries the data of a canonical secret that is fresh: the sending thread has read
it itself, or has taken it from the cache at most the time to live after it was put there.  And that
thread was not told that there is no canonical secret. -/
theorem writes_are_fresh (hempty : start.cache.slots = []) (hrun : Run medium ⟨start, []⟩ es P)
    (hs : Step medium P (.answered i x) Q) {w : Write} (hwrite : x.request.write? = some w) :
    (∃ s, s.key = .ok .source ∧ w.body.Carries s ∧ IsFresh start es P i s) ∧
      ∀ y ∈ exchanges i es, ¬ SaysAbsent y := by
  constructor
  · obtain ⟨-, s, hfound, hcarries⟩ := permitted_write hempty hrun hs hwrite
    obtain ⟨hkey, hfresh⟩ := fresh_of_found hempty hrun hfound
    exact ⟨s, hkey, hcarries, hfresh⟩
  · obtain ⟨next, hi, -, -⟩ := hs.exists_asking
    obtain ⟨_, _, -, ⟨activity, hwatched, rfl⟩, hfollows⟩ := hrun.exists_begun hi
    -- The way of the thread so far and the write itself can be completed.
    obtain ⟨ys, r, hcompletes⟩ :=
      (hfollows.append (.next (.none (next x.answer)))).exists_completes .rateIsZero
    have hrespects := neverWritesIfAbsent_activity hwatched _ _ hcompletes
    have hmem : x ∈ exchanges i es ++ [⟨x.request, x.answer⟩] ++ ys :=
      List.mem_append_left _ (List.mem_append_right _ List.mem_cons_self)
    intro y hy habsent
    have hnone := hrespects y (List.mem_append_left _ (List.mem_append_left _ hy)) habsent x hmem
    rw [hwrite] at hnone
    cases hnone

/-- It is so with the write that an event leads to. -/
theorem writes_are_fresh_after_event : ∃ es P Q x w, Example.first.cache.slots = [] ∧
    Run medium ⟨Example.first, []⟩ es P ∧ Step medium P (.answered 0 x) Q ∧
      x.request.write? = some w ∧
        (∃ s, s.key = .ok .source ∧ w.body.Carries s ∧ IsFresh Example.first es P 0 s) ∧
          ∀ y ∈ exchanges 0 es, ¬ SaysAbsent y := by
  obtain ⟨es, P, Q, x, w, hrun, hs, hwrite⟩ := Example.exists_write
  obtain ⟨hfresh, hpresent⟩ := writes_are_fresh rfl hrun hs hwrite
  exact ⟨es, P, Q, x, w, rfl, hrun, hs, hwrite, hfresh, hpresent⟩

end SecretMirror.UntrustedCluster
