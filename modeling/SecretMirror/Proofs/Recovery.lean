import SecretMirror.Proofs.Recovery.Outcome

/-!
# A failed reconciliation can be repeated

A reconciliation in which a call of the API fails has emitted nothing and, unless the answer to a
write was lost, has written nothing.  What is left is the cache, and there the two main statements
differ.

After a conflict the cache may have been arbitrarily old, so nothing in it is to be trusted: neither
secret is cached any more, and the next reconciliation reads what it decides on
(`reconcile_recovers_from_conflict`).

If the cache showed what was stored, it still does, whichever call failed and in whichever way.  So
the next reconciliation makes up for the failed one: both together write and emit what a single one
would have (`retry_makes_up`).
-/

namespace SecretMirror

open Operator
open Program hiding bind ask

namespace Cluster

variable {τ : Type} [Time τ] {c d e : Cluster τ}

/-- How a reconciliation leaves the two secrets: there is no canonical one, or the mirror is
somebody else's and nothing was touched, or the mirror is the operator's and has the same bytes as
the canonical secret under every name. -/
inductive Establishes (c d : Cluster τ) : Prop where
  | sourceAbsent (hsource : d.server.seen .source = none)
  | foreign {target : Secret} (htarget : d.server.seen .target = some target)
      (hforeign : ¬ target.Annotates Names.managedBy (.text Names.manager))
      (hserver : d.server = c.server)
  | mirrored {source target : Secret} (hsource : d.server.seen .source = some source)
      (htarget : d.server.seen .target = some target)
      (hmanaged : target.Annotates Names.managedBy (.text Names.manager))
      (hdata : ∀ name, target.datum? name = source.datum? name)

omit [Time τ] in
theorem Converges.establishes (h : c.Converges d) : c.Establishes d := by
  have hsource' : d.server.seen .source = c.server.seen .source := by
    have hne : Key.source ≠ Key.target := by decide
    rw [Server.seen, h.others Key.source hne, Server.seen]
  cases hsource : c.server.seen .source with
  | none =>
    rw [hsource] at hsource'
    exact .sourceAbsent hsource'
  | some source =>
    rw [hsource] at hsource'
    cases htarget : c.server.seen .target with
    | none =>
      obtain ⟨m, hm, hmirror⟩ := h.created source hsource htarget
      refine .mirrored hsource' hm hmirror.managed fun name => ?_
      rw [Secret.datum?, hmirror.data, Secret.datum?]
    | some target =>
      by_cases hmanaged : target.Annotates Names.managedBy (.text Names.manager)
      · obtain ⟨m, hm, hdata, hcontent⟩ := h.updated source target hsource htarget hmanaged
        refine .mirrored hsource' hm ?_ hdata
        rw [hcontent]
        exact hmanaged
      · obtain ⟨hserver, -⟩ := h.foreign target htarget hmanaged
        refine .foreign ?_ hmanaged hserver
        rw [hserver]
        exact htarget

omit [Time τ] in
/-- A conflict is no news that there is nothing to read. -/
theorem isNumber_404_of_isConflict {fault : Fault τ} (h : fault.isConflict = true) :
    fault.statusOf.isNumber 404 = false := by
  simp only [Fault.isConflict, Value.isNumber, beq_iff_eq] at h
  rw [Value.isNumber, h]
  decide

/-- The fault by which a call of the API was answered. -/
def failure? : Exchange (requests τ) (Fault τ) → Option (Fault τ)
  | ⟨.read .., .error fault⟩ => some fault
  | ⟨.create .., .error fault⟩ => some fault
  | ⟨.replace .., .error fault⟩ => some fault
  | _ => none

omit [Time τ] in
theorem of_failure? {x : Exchange (requests τ) (Fault τ)} {fault : Fault τ}
    (h : failure? x = some fault) : x.request.IsCall ∧ x.answer = .error fault := by
  unfold failure? at h
  split at h <;> first | exact ⟨trivial, congrArg _ (Option.some.inj h)⟩ | cases h

omit [Time τ] in
theorem exists_failure {xs : List (Exchange (requests τ) (Fault τ))} {P : Fault τ → Bool}
    (h : (xs.any fun x => (failure? x).any P) = true) :
    ∃ x ∈ xs, ∃ fault, x.request.IsCall ∧ x.answer = .error fault ∧ P fault = true := by
  obtain ⟨x, hx, hfailed⟩ := List.any_eq_true.1 h
  cases hfailure : failure? x with
  | none => simp [hfailure] at hfailed
  | some fault =>
    obtain ⟨hcall, hanswer⟩ := of_failure? hfailure
    rw [hfailure] at hfailed
    exact ⟨x, hx, fault, hcall, hanswer, hfailed⟩

variable [Time.IsExact τ] (timing : Resync.Timing τ)

/-! ## Conflicts -/

/-- Both secrets are well-formed where they are stored, if they are stored. -/
def Server.IsServed (s : Server) : Prop :=
  ∀ key, key = .source ∨ key = .target → ∀ w, s.objects key = some w → w.IsServed key

omit [Time.IsExact τ] in
/-- Where neither secret is cached, a reconciliation can do its work. -/
theorem IsForgetful.isReady (h : c.IsForgetful) (hundisturbed : c.IsUndisturbed)
    (hserved : c.server.IsServed) :
    c.IsReady where
  undisturbed := hundisturbed
  served := hserved
  coherent key hkey e he := by
    have hnone : c.cache.find? key = none := by
      rcases hkey with rfl | rfl
      · exact h.1
      · exact h.2
    rw [hnone] at he
    cases he

/-- Whatever copies are cached, however old: when a call of a reconciliation meets a conflict, the
conflict is passed on with its own delay, nothing was emitted or written, and neither secret is
cached any more.  The next reconciliation, if nothing fails, reads the canonical secret, and the
mirror too if there is a canonical one, and puts the mirror right.  This holds whatever is stored by
then, so also if somebody else's write was the cause of the conflict. -/
theorem reconcile_recovers_from_conflict {tuning : Tuning τ}
    (hrate : Time.isZero tuning.rate = false) (hc : c.IsStocked)
    (hlost : ∀ fault, c.LosesAnswers fault → (fault.isApi && fault.isConflict) = false)
    (trigger : String) {x : Exchange (requests τ) (Fault τ)} {fault : Fault τ}
    (hx : x ∈ (reconcile tuning (.text trigger)).trace (handle timing) c)
    (hcall : x.request.IsCall) (hanswer : x.answer = .error fault)
    (hconflict : (fault.isApi && fault.isConflict) = true) :
    ∃ d, (reconcile tuning (.text trigger)).run (handle timing) c =
        (.error (conflictFault tuning.conflictDelay fault), d) ∧
      d.server = c.server ∧ d.record.events = c.record.events ∧ d.IsForgetful ∧
      ∀ e : Cluster τ, e.IsUndisturbed → e.server.IsServed → e.cache = d.cache →
        ∀ trigger' : String, ∃ e' decision,
          (reconcile tuning (.text trigger')).Gives (handle timing) e decision e' ∧
          Reads ((reconcile tuning (.text trigger')).trace (handle timing) e)
            (.text Names.configNamespace) (.text Names.source) ∧
          (e.server.seen .source ≠ none →
            Reads ((reconcile tuning (.text trigger')).trace (handle timing) e)
              (.text Names.configNamespace) (.text Names.target)) ∧
          e.Establishes e' := by
  have hnumber : (fault.isApi && fault.statusOf.isNumber 404) = false := by
    obtain ⟨-, h409⟩ : fault.isApi = true ∧ fault.isConflict = true := by
      simpa using hconflict
    rw [isNumber_404_of_isConflict h409, Bool.and_false]
  have hfails : FailsWith x fault := ⟨hcall, hanswer, fun _ _ _ => hnumber⟩
  obtain ⟨passed, hresult, hpasses⟩ := yields_reconcile timing hrate hc trigger x hx fault hfails
  obtain ⟨rfl, hforgetful⟩ := hpasses.conflict hconflict
  have habides := hpasses.written.resolve_right fun h => by
    rw [hlost fault h] at hconflict
    cases hconflict
  refine ⟨_, Prod.ext hresult rfl, habides.server, habides.events, hforgetful, ?_⟩
  intro e hundisturbed hserved hcache trigger'
  -- Both secrets were dropped before the conflict was passed on, so what the next run decides on is
  -- read, and the cache cannot mislead it.
  have hforgetful' : e.IsForgetful := by
    unfold IsForgetful
    rw [hcache]
    exact hforgetful
  have hready : e.IsReady := hforgetful'.isReady hundisturbed hserved
  obtain ⟨e', decision, hgives, hdue, hcarried⟩ := gives_reconcile timing hrate hready trigger'
  obtain ⟨hsource, htarget⟩ := reads_reconcile timing hrate hready hforgetful' (.text trigger')
  have hestablishes := (converges_of_carriesOut hdue hcarried).establishes
  exact ⟨e', decision, hgives, hsource, htarget, hestablishes⟩

/-- A mirror whose data somebody has changed, as it is stored under a version. -/
def drifted (version : String) : WireSecret where
  metadata := {
    name := .text Names.target
    space := .text Names.configNamespace
    annotations := .object [(Names.managedBy, .text Names.manager)]
    resourceVersion := .text version }
  data := .object [("key", .text "AA==")]

/-- The mirror as it is read. -/
def driftedTarget (version : String) : Secret where
  name := .text Names.target
  space := .text Names.configNamespace
  annotations := .object [(Names.managedBy, .text Names.manager)]
  data := some [("key", [0])]
  resourceVersion := .text version

theorem ofWire_drifted (version : String) :
    Secret.ofWire (drifted version) = .ok (driftedTarget version) := rfl

theorem isServed_drifted (version : String) : (drifted version).IsServed .target :=
  ⟨⟨_, ofWire_drifted version⟩, rfl, .inr ⟨_, rfl⟩, by simp [drifted, Value.same, Value.atom?]⟩

/-- A cluster where a former version of the mirror is cached. -/
def outdated : Cluster ℚ :=
  { Cluster.new 1000 30 with
    cache := Cache.put (Cache.put { ttl := 30 } .source Example.source 990) .target
      (driftedTarget "2") 990
    server := {
      objects := fun key => if key = .source then some Example.canonical
        else if key = .target then some (drifted "3") else none
      version := 3 } }

theorem isStocked_outdated : outdated.IsStocked where
  latency := Time.le_refl _
  served key _ w hw := by
    simp only [outdated] at hw
    split at hw
    · next heq =>
      cases hw
      subst heq
      exact isServed_canonical
    · split at hw
      · next heq =>
        cases hw
        subst heq
        exact isServed_drifted "3"
      · cases hw
  cached key _ e he := by
    right
    simp only [outdated, Cache.find?_put] at he
    split at he
    · next heq =>
      cases he
      subst heq
      exact ⟨drifted "2", isServed_drifted "2", ofWire_drifted "2"⟩
    · split at he
      · next heq =>
        cases he
        subst heq
        exact ⟨Example.canonical, isServed_canonical, Example.ofWire_canonical⟩
      · cases he

set_option maxRecDepth 10000 in
/-- There, a replacement is refused, and nothing is cached afterwards. -/
theorem reconcile_recovers_outdated : ∃ fault d,
    (reconcile ⟨8, 5, ⟨300, 30⟩⟩ (.text "timer")).run (handle ⟨300, 30⟩) outdated =
      (.error (conflictFault 5 fault), d) ∧
    d.server = outdated.server ∧ d.IsForgetful := by
  have hrate : Time.isZero (Tuning.mk 8 5 ⟨300, 30⟩ : Tuning ℚ).rate = false := rfl
  have hfailure : (((reconcile ⟨8, 5, ⟨300, 30⟩⟩ (.text "timer")).trace (handle ⟨300, 30⟩)
      outdated).any fun x => (failure? x).any fun fault => fault.isApi && fault.isConflict) =
        true := by
    decide +kernel
  have hlost : ∀ fault, outdated.LosesAnswers fault → (fault.isApi && fault.isConflict) =
    false := by
    rintro fault ⟨verb, x, hx, -⟩
    cases hx
  obtain ⟨x, hx, fault, hcall, hanswer, hconflict⟩ := exists_failure hfailure
  obtain ⟨d, hrun, hserver, -, hforgetful, -⟩ := reconcile_recovers_from_conflict ⟨300, 30⟩ hrate
    isStocked_outdated hlost "timer" hx hcall hanswer hconflict
  exact ⟨fault, d, hrun, hserver, hforgetful⟩

/-! ## Retries -/

/-- How many writes have succeeded. -/
def writesIn (xs : List (Exchange (requests τ) (Fault τ))) : Nat := xs.countP hasWritten

omit [Time τ] [Time.IsExact τ] in
theorem IsPrompt.not_losesAnswers (hc : c.IsPrompt) {fault : Fault τ} :
    ¬ c.LosesAnswers fault := by
  rintro ⟨verb, x, hx, hlate, -⟩
  rw [hc verb x hx] at hlate
  cases hlate

omit [Time.IsExact τ] in
theorem IsUndisturbed.isPrompt (hc : c.IsUndisturbed) : c.IsPrompt := by
  intro verb x hx
  rw [hc.disturbances verb] at hx
  cases hx

omit [Time.IsExact τ] in
theorem IsStocked.disturbed (hc : c.IsStocked) (plan : Disturbances τ) :
    Cluster.IsStocked { c with disturbances := plan } :=
  ⟨hc.latency, hc.served, hc.cached⟩

/-- What was coherent before is still so some time later, when nothing fails any more. -/
theorem isReady_of_abides {keys : Key → Prop} (hlatency : 0 ≤ c.latency)
    (hserved : c.server.IsServed)
    (hcoherent : ∀ key, key = .source ∨ key = .target → c.Coherent key) (h : c.Abides keys d)
    (hundisturbed : e.IsUndisturbed) (hclock : d.clock ≤ e.clock) (hserver : e.server = d.server)
    (hcache : e.cache = d.cache) : e.IsReady where
  undisturbed := hundisturbed
  served key hkey w hw := by
    rw [hserver, h.server] at hw
    exact hserved key hkey w hw
  coherent key hkey := by
    have hd : d.Coherent key := h.coherent hlatency (hcoherent key hkey)
    refine hd.of_le hclock (by rw [hserver]) (by rw [hcache]) fun entry hentry => ?_
    rw [← hcache]
    exact hentry

/-- When the cache shows what is stored and a call of a reconciliation fails without effect, nothing
was emitted or written.  The next reconciliation, whenever it comes, if nothing fails and nobody
else writes meanwhile, leaves the server as a single one would have left it at once; the failed one
and the next one together have made as many writes as the single one, and emitted the same. -/
theorem retry_makes_up {tuning : Tuning τ} (hrate : Time.isZero tuning.rate = false)
    (hc : c.IsReady) (plan : Disturbances τ)
    (hplan : ∀ verb x, plan verb = some x → x.isLate = false) (trigger trigger' : String)
    {x : Exchange (requests τ) (Fault τ)} {fault : Fault τ}
    (hx : x ∈ (reconcile tuning (.text trigger)).trace (handle timing)
      { c with disturbances := plan }) (hfails : FailsWith x fault) :
    ∃ passed d, (reconcile tuning (.text trigger)).run (handle timing)
        { c with disturbances := plan } = (.error passed, d) ∧
      d.server = c.server ∧ d.record.events = c.record.events ∧
      ∀ e : Cluster τ, e.IsUndisturbed → d.clock ≤ e.clock → e.server = d.server → e.cache =
        d.cache →
        ∃ decision c' e' emitted,
          (reconcile tuning (.text trigger)).Gives (handle timing) c decision c' ∧
          (reconcile tuning (.text trigger')).Gives (handle timing) e decision e' ∧
          e'.server = c'.server ∧
          c'.record.events = c.record.events ++ emitted ∧
          e'.record.events = e.record.events ++ emitted ∧
          writesIn ((reconcile tuning (.text trigger)).trace (handle timing)
              { c with disturbances := plan }) +
            writesIn ((reconcile tuning (.text trigger')).trace (handle timing) e) =
            writesIn ((reconcile tuning (.text trigger)).trace (handle timing) c) := by
  have hprompt : Cluster.IsPrompt { c with disturbances := plan } := hplan
  obtain ⟨passed, hresult, hpasses⟩ :=
    yields_reconcile timing hrate (hc.isStocked.disturbed plan) trigger x hx fault hfails
  -- No answer is lost, so the failed reconciliation has left the server alone.
  have habides := hpasses.written.resolve_right hprompt.not_losesAnswers
  refine ⟨passed, _, Prod.ext hresult rfl, habides.server, habides.events, ?_⟩
  intro e hundisturbed hclock hserver hcache
  have hserver' : e.server = c.server := hserver.trans habides.server
  have hready : e.IsReady :=
    isReady_of_abides (c := { c with disturbances := plan })
      hc.undisturbed.latency hc.served hc.coherent
      habides hundisturbed hclock hserver hcache
  obtain ⟨c', decision, hgives, hdue, -⟩ := gives_reconcile timing hrate hc trigger
  obtain ⟨e', decision', hgives', hdue', -⟩ := gives_reconcile timing hrate hready trigger'
  -- Both find the same, so they decide the same.
  obtain rfl : decision' = decision := by
    rw [hserver', hdue] at hdue'
    exact (Except.ok.inj hdue').symm
  obtain ⟨hmade, hemitted⟩ := makes_of_gives_reconcile timing hgives
  obtain ⟨hmade', hemitted'⟩ := makes_of_gives_reconcile timing hgives'
  have hsame : e'.server = c'.server := by
    rw [hmade', hmade, hserver']
  refine ⟨decision', c', e', decision'.events, hgives, hgives', hsame, hemitted,
    hemitted', ?_⟩
  have hcount := version_run timing (reconcile tuning (.text trigger)) hprompt
  have hcount₁ := version_run timing (reconcile tuning (.text trigger)) hc.undisturbed.isPrompt
  have hcount₂ := version_run timing (reconcile tuning (.text trigger')) hundisturbed.isPrompt
  rw [habides.server] at hcount
  rw [hgives] at hcount₁
  rw [hgives', hsame, hserver'] at hcount₂
  dsimp only at hcount hcount₁
  unfold writesIn
  omega

/-- The server cannot take a new secret in. -/
def unavailable : Disturbances ℚ := fun verb =>
  if verb = .create then
    some { fault := .api (.int 503) (.text "Service Unavailable") .null }
  else none

set_option maxRecDepth 10000 in
/-- A mirror that could not be created is created by the next reconciliation. -/
theorem retry_makes_up_without_mirror : ∃ passed d,
    (reconcile ⟨8, 5, ⟨300, 30⟩⟩ (.text "event")).run (handle ⟨300, 30⟩)
      { withoutMirror with disturbances := unavailable } = (.error passed, d) ∧
    ∀ e : Cluster ℚ, e.IsUndisturbed → d.clock ≤ e.clock → e.server = d.server → e.cache = d.cache →
      ∃ decision c' e',
        (reconcile ⟨8, 5, ⟨300, 30⟩⟩ (.text "event")).Gives (handle ⟨300, 30⟩) withoutMirror
          decision c' ∧
        (reconcile ⟨8, 5, ⟨300, 30⟩⟩ (.text "retry")).Gives (handle ⟨300, 30⟩) e decision e' ∧
        e'.server = c'.server := by
  have hrate : Time.isZero (Tuning.mk 8 5 ⟨300, 30⟩ : Tuning ℚ).rate = false := rfl
  have hplan : ∀ verb x, unavailable verb = some x → x.isLate = false := by
    intro verb x hx
    unfold unavailable at hx
    split at hx
    · cases hx
      rfl
    · cases hx
  have hfailure : (((reconcile ⟨8, 5, ⟨300, 30⟩⟩ (.text "event")).trace (handle ⟨300, 30⟩)
      { withoutMirror with disturbances := unavailable }).any fun x => (failure? x).any fun fault =>
        !(fault.isApi && fault.statusOf.isNumber 404)) = true := by
    decide +kernel
  obtain ⟨x, hx, fault, hcall, hanswer, hnumber⟩ := exists_failure hfailure
  have hfails : FailsWith x fault := by
    refine ⟨hcall, hanswer, fun _ _ _ => ?_⟩
    exact Bool.not_eq_true' _ ▸ hnumber
  obtain ⟨passed, d, hrun, -, -, hnext⟩ := retry_makes_up ⟨300, 30⟩ hrate isReady_withoutMirror
    unavailable hplan "event" "retry" hx hfails
  refine ⟨passed, d, hrun, fun e hundisturbed hclock hserver hcache => ?_⟩
  obtain ⟨decision, c', e', emitted, hsingle, hretry, hsame, -⟩ :=
    hnext e hundisturbed hclock hserver hcache
  exact ⟨decision, c', e', hsingle, hretry, hsame⟩

end Cluster

end SecretMirror
