import SecretMirror.Proofs.FailureReports
import SecretMirror.Proofs.SecretTraffic.Conduct
import SecretMirror.Proofs.Provenance

/-!
# What becomes of a fault

A reconciliation that has configured its client fails by the fault of its synchronisation, wherever
in it that has occurred (`FailedRun.exists_run_of_failed`).  The fault is passed on as a temporary
one, which asks for an early retry, exactly if it is an error of the API with one of three statuses
(`Fault.AsksForRetry`); any other is passed on as it is.

At the same time the cache is put right.  After a conflict neither secret is cached, and after a
write that was not answered the mirror is not.  Beyond this nothing is lost from the cache but on
account of its age, and nothing has come in but what the API has brought
(`FailedRun.passes_fault_on`).

The surroundings are an untrusted cluster, which may answer in any way.  It is only taken for
granted that everything cached at first lies under its own key, and that counting and logging do not
fail.
-/

namespace SecretMirror

open Operator
open Program hiding bind ask

/-! ## Faults that ask for a retry -/

theorem Text.occursIn_iff {needle text : List Char} :
    Text.occursIn needle text = true ↔ needle <:+: text := by
  induction text with
  | nil => simp [Text.occursIn]
  | cons c text ih => simp [Text.occursIn, List.infix_cons_iff, ih]

namespace Fault

variable {τ : Type}

/-- The fault is an error of the API with this status.  The status is compared as a number, so it
may be an integer or a float. -/
def HasStatus (number : Int) : Fault τ → Prop
  | .api status _ _ => status.isNumber number = true
  | _ => False

/-- The fault is an error of the API that tells of a conflict, asks for fewer calls, or tells that
the API is not available and speaks of its rate limit in any mixture of cases. -/
def AsksForRetry (fault : Fault τ) : Prop :=
  fault.HasStatus 409 ∨ fault.HasStatus 429 ∨ fault.HasStatus 503 ∧
    "rate limit".toList <:+: fault.message.toList.map Text.asciiSmall

theorem hasStatus_conflict_iff (fault : Fault τ) :
    fault.HasStatus 409 ↔ (fault.isApi && fault.isConflict) = true := by
  cases fault <;> simp [HasStatus, isApi, isConflict, statusOf]

theorem asksForRetry_iff (fault : Fault τ) : fault.AsksForRetry ↔
    (fault.isApi && fault.isConflict) = true ∨ (fault.isApi && fault.isRateLimited) = true := by
  rw [← hasStatus_conflict_iff]
  cases fault <;>
    simp [AsksForRetry, HasStatus, isApi, isRateLimited, statusOf, Text.occursIn_iff]

theorem ne_temporary_self (fault : Fault τ) (message : String) (delay : Option τ) :
    fault ≠ .temporary message delay (some fault) := by
  intro h
  have hsize := congrArg sizeOf h
  simp at hsize
  omega

end Fault

namespace Operator

variable {τ : Type}

/-! ## Passing a fault on -/

/-- What a synchronisation that failed by a fault is followed by: the traffic that puts the cache
right, and what the fault is passed on as.  Only a conflict drops entries here, and it drops
both. -/
structure FaultTranslation (delay : τ) (fault : Fault τ)
    (es : List (Exchange (requests τ) (Fault τ))) (r : Except (Fault τ) Decision) : Prop where
  delayed : fault.AsksForRetry →
    ∃ message, r = .error (.temporary message (some delay) (some fault))
  same : ¬ fault.AsksForRetry → r = .error fault
  /-- Only after a conflict something is dropped, and this is one of the two secrets. -/
  drops : ∀ x ∈ es, ∀ key, x.request.Drops key →
    fault.HasStatus 409 ∧ (key = .source ∨ key = .target)
  /-- Nothing is cached. -/
  putsNothing : ∀ x ∈ es, ∀ s, x.request ≠ .cachePut s
  /-- After a conflict neither secret is cached. -/
  vacates : fault.HasStatus 409 → Vacates .source es ∧ Vacates .target es

theorem drops_forget_iff {name : String} {key : Key} :
    Request.Drops key (.cacheForget (.text Names.configNamespace) (.text name) : Request τ) ↔
      key = .ofTexts Names.configNamespace name := by
  simp [Request.Drops, Key.ofValues_text, eq_comm]

theorem hasTraffic_forget (name : String) :
    HasTraffic (ask (.cacheForget (.text Names.configNamespace) (.text name)) : Task τ Unit)
      fun es r => es = [⟨.cacheForget (.text Names.configNamespace) (.text name), .ok ()⟩] ∧
        r = .ok () := by
  refine (hasTraffic_ask rfl).imp ?_
  rintro _ a ⟨rfl, hreliable, -⟩
  cases a with
  | ok done => exact ⟨rfl, rfl⟩
  | error fault => exact absurd (Key.ofValues_text _ _) (hreliable _)

theorem hasTraffic_passOn (delay : τ) (fault : Fault τ) :
    HasTraffic (passOn delay {} fault) (FaultTranslation delay fault) := by
  have hnothing : ∀ {r : Except (Fault τ) Decision}, ¬ fault.HasStatus 409 →
      (fault.AsksForRetry → ∃ message, r = .error (.temporary message (some delay) (some fault))) →
      (¬ fault.AsksForRetry → r = .error fault) → FaultTranslation delay fault [] r :=
    fun hstatus hdelayed hsame => ⟨hdelayed, hsame, by simp, by simp, fun h => absurd h hstatus⟩
  unfold passOn
  by_cases hconflict : (fault.isApi && fault.isConflict) = true
  · have hstatus : fault.HasStatus 409 := fault.hasStatus_conflict_iff.2 hconflict
    have hasks : fault.AsksForRetry := .inl hstatus
    rw [if_pos hconflict]
    refine enters_bind (P := fun es r => es = [⟨.cacheForget (.text Names.configNamespace)
        (.text Names.source), .ok ()⟩, ⟨.cacheForget (.text Names.configNamespace)
        (.text Names.target), .ok ()⟩] ∧ r = .ok ()) ?_ ?_ ?_
    · refine enters_bind (hasTraffic_forget Names.source) ?_ ?_
      · rintro _ _ ⟨rfl, -⟩
        exact (hasTraffic_forget Names.target).imp fun _ _ h => ⟨by rw [h.1]; rfl, h.2⟩
      · rintro _ _ ⟨-, ⟨⟩⟩
    · rintro _ _ ⟨rfl, -⟩
      refine enters_done ⟨fun _ => ⟨_, rfl⟩, fun h => absurd hasks h, fun x hx key hdrops => ?_,
        by simp, fun _ => ⟨?_, ?_⟩⟩
      · refine ⟨hstatus, ?_⟩
        rcases List.mem_cons.1 hx with rfl | hx
        · exact .inl (drops_forget_iff.1 hdrops)
        · rw [List.mem_singleton.1 hx] at hdrops
          exact .inr (drops_forget_iff.1 hdrops)
      · exact vacates_cons (drops_forget_iff.2 rfl) (by simp [Request.Puts])
      · exact .append_left (vacates_cons (drops_forget_iff.2 rfl) (by simp)) [_]
    · rintro _ _ ⟨-, ⟨⟩⟩
  · have hstatus : ¬ fault.HasStatus 409 := fun h => hconflict (fault.hasStatus_conflict_iff.1 h)
    rw [if_neg hconflict]
    by_cases hlimited : (fault.isApi && fault.isRateLimited) = true
    · have hasks : fault.AsksForRetry := fault.asksForRetry_iff.2 (.inr hlimited)
      rw [if_pos hlimited]
      exact enters_done (hnothing hstatus (fun _ => ⟨_, rfl⟩) fun h => absurd hasks h)
    · have hasks : ¬ fault.AsksForRetry := fun h =>
        (fault.asksForRetry_iff.1 h).elim hconflict hlimited
      rw [if_neg hlimited]
      exact enters_done (hnothing hstatus (fun h => absurd h hasks) fun _ => rfl)

variable [Time τ]

/-- What is done after a synchronisation, by its outcome.  A failure is reported and passed on, a
success is reported, and the duration is measured in either case. -/
def conclude (tuning : Tuning τ) (trigger : Value) (start : τ)
    (outcome : Except (Fault τ) Decision) : Task τ Decision := do
  let decision ← ((Program.ofExcept outcome).recover fun fault => do
      recordFailure trigger fault
      passOn tuning.conflictDelay {} fault).always
    (measureSince start (.reconciliationTime trigger.display))
  recordSuccess trigger decision
  return decision

/-- A reconciliation is a synchronisation between what comes before and what is done after it, so a
failed one can be taken apart there. -/
theorem reconcile_eq (tuning : Tuning τ) (trigger : Value) :
    reconcile tuning trigger = ((connect >>= fun _ => now) >>= fun start =>
      (sync tuning.rate {}).outcome (conclude tuning trigger start)) := by
  rw [reconcile, bind_assoc]
  congr 1
  funext _
  rw [reconcileConnected]
  congr 1
  funext start
  exact recover_always_bind _ _ _ _

/-- Nothing fails any more after a synchronisation that has succeeded. -/
theorem enters_conclude_ok (tuning : Tuning τ) (trigger : String) (start : τ)
    (decision : Decision) : (conclude tuning (.text trigger) start (.ok decision)).Enters IsReliable
      (noted fun _ => true) fun _ r => r = .ok decision := by
  have hmeasured : ((pure decision : Task τ Decision).always
      (measureSince start (.reconciliationTime trigger))).Enters IsReliable (noted fun _ => true)
        fun _ r => r = .ok decision := by
    refine enters_always (P := fun _ r => r = .ok decision) (enters_done rfl) fun es r hr => ?_
    exact (enters_measureSince (fun _ h => h) start _).imp fun _ _ h => ⟨h.2, hr⟩
  refine enters_bind hmeasured ?_ ?_
  · rintro _ _ ⟨⟩
    refine enters_bind (enters_recordSuccess (fun _ h => h) trigger decision) ?_ ?_
    · exact fun _ _ _ => enters_done rfl
    · rintro _ _ ⟨-, ⟨⟩⟩
  · rintro _ _ ⟨⟩

theorem hasTraffic_conclude (tuning : Tuning τ) (trigger : String) (start : τ) (fault : Fault τ) :
    HasTraffic (conclude tuning (.text trigger) start (.error fault))
      (FaultTranslation tuning.conflictDelay fault) := by
  have hfails : ∀ {es : List (Exchange (requests τ) (Fault τ))} {decision : Decision},
      ¬ FaultTranslation tuning.conflictDelay fault es (.ok decision) := by
    intro es decision h
    by_cases hasks : fault.AsksForRetry
    · obtain ⟨message, ⟨⟩⟩ := h.delayed hasks
    · cases h.same hasks
  have hpassed : HasTraffic (recordFailure (.text trigger) fault >>= fun _ =>
      passOn tuning.conflictDelay {} fault) (FaultTranslation tuning.conflictDelay fault) := by
    refine enters_bind (hasTraffic_recordFailure trigger fault) ?_ ?_
    · rintro _ _ ⟨rfl, -⟩
      exact hasTraffic_passOn tuning.conflictDelay fault
    · rintro _ _ ⟨-, ⟨⟩⟩
  refine enters_bind (P := FaultTranslation tuning.conflictDelay fault)
    (enters_always hpassed ?_) ?_ ?_
  · intro es r hes
    refine (hasTraffic_measureSince start _).imp ?_
    rintro _ _ ⟨rfl, rfl⟩
    rw [List.append_nil]
    exact ⟨rfl, hes⟩
  · exact fun es decision hes => absurd hes hfails
  · exact fun es e hes => hes

end Operator

/-! ## Failed reconciliations -/

/-- A reconciliation that has configured its client and fails in its synchronisation, as all that is
asked and answered in it.  The parts are those of `reconcile_eq`. -/
structure FailedRun {τ : Type} [Time τ] (tuning : Tuning τ) (trigger : String) where
  /-- What comes before the synchronisation. -/
  before : List (Exchange (requests τ) (Fault τ))
  /-- When the synchronisation begins. -/
  start : τ
  /-- What the synchronisation asks of its collaborators. -/
  conduct : List (Exchange Sync.collaborators (Fault τ))
  /-- The fault that ends the synchronisation. -/
  fault : Fault τ
  /-- What the collaborators ask for. -/
  during : List (Exchange (requests τ) (Fault τ))
  /-- What comes after the synchronisation. -/
  after : List (Exchange (requests τ) (Fault τ))
  /-- How the reconciliation ends. -/
  result : Except (Fault τ) Decision
  connects : (connect >>= fun _ => now).Completes before (.ok start)
  fails : (Sync.sync {}).Completes conduct (.error fault)
  carries : Carries (collaborate tuning.rate (Sync.Places.targetReference {})) conduct during
  completes : (reconcile tuning (.text trigger)).Completes (before ++ (during ++ after)) result

namespace FailedRun

variable {τ : Type} [Time τ] {tuning : Tuning τ} {trigger : String}

/-- All that is asked and answered. -/
def exchanges (run : FailedRun tuning trigger) : List (Exchange (requests τ) (Fault τ)) :=
  run.before ++ (run.during ++ run.after)

theorem exists_run {before during after : List (Exchange (requests τ) (Fault τ))} {start : τ}
    {fault : Fault τ} {r : Except (Fault τ) Decision}
    (hconnects : (connect >>= fun _ => now).Completes before (.ok start))
    (hsync : (sync tuning.rate {}).Completes during (.error fault))
    (h : (reconcile tuning (.text trigger)).Completes (before ++ (during ++ after)) r) :
    ∃ run : FailedRun tuning trigger, run.fault = fault ∧ run.result = r ∧
      run.exchanges = before ++ (during ++ after) := by
  obtain ⟨conduct, hfails, hcarries⟩ := completes_interpret_iff.1 hsync
  exact ⟨⟨before, start, conduct, fault, during, after, r, hconnects, hfails, hcarries, h⟩,
    rfl, rfl, rfl⟩

/-- A reconciliation fails in no other way, but for want of a configuration of the client. -/
theorem exists_run_of_failed {xs : List (Exchange (requests τ) (Fault τ))} {passed : Fault τ}
    (h : (reconcile tuning (.text trigger)).Completes xs (.error passed))
    (hreliable : ∀ x ∈ xs, IsReliable x) :
    (connect (τ := τ)).Completes xs (.error passed) ∨
      ∃ run : FailedRun tuning trigger, run.exchanges = xs ∧ run.result = .error passed := by
  have hcompletes := h
  rw [reconcile_eq] at h
  rcases completes_bind_iff.1 h with ⟨fault, hstart, ⟨⟩⟩ | ⟨before, start, ys, hstart, hrest, rfl⟩
  · rcases completes_bind_iff.1 hstart with
      ⟨fault, hconnect, ⟨⟩⟩ | ⟨before, _, ys, hconnect, hnow, rfl⟩
    · exact .inl hconnect
    · obtain rfl := completes_request_iff.1 hnow
      exact (hreliable ⟨.now, .error passed⟩ (by simp)).elim
  · obtain ⟨during, outcome, after, hsync, hconclude, rfl⟩ := completes_outcome_iff.1 hrest
    cases outcome with
    | error fault =>
      obtain ⟨run, -, hresult, hexchanges⟩ := exists_run hstart hsync hcompletes
      exact .inr ⟨run, hexchanges, hresult⟩
    | ok decision =>
      have hafter : ∀ x ∈ after, IsReliable x := fun x hx => hreliable x (by simp [hx])
      cases enters_conclude_ok tuning trigger start decision _ _ hconclude hafter

end FailedRun

/-! ## A refused write -/

namespace UntrustedCluster.Example

/-- Answers a request where there is the canonical secret only, and a mirror cannot be created since
the server has one already. -/
def refuse : (q : (requests ℚ).Request) → UntrustedCluster ℚ →
    Except (Fault ℚ) ((requests ℚ).Answer q) × UntrustedCluster ℚ
  | .read space name, s =>
    (if Key.ofValues space name = .ok .source then .ok SecretMirror.Example.canonical
      else .error Cluster.Refusal.notFound.fault, s)
  | .create .., s => (.error Cluster.Refusal.alreadyExists.fault, s)
  | .schedule step, s => (.ok (step.perform ⟨300, 30⟩ { lastRun := s.clock }).1, s)
  | q, s => answer q s

theorem answers_refuse (q : (requests ℚ).Request) (s : UntrustedCluster ℚ) :
    Answers q s (refuse q s).1 (refuse q s).2 := by
  have hwaits : s.Waits s := ⟨Time.le_refl _, rfl⟩
  cases q with
  | read space name =>
    refine ⟨hwaits, rfl, fun w hw => ?_⟩
    by_cases hkey : Key.ofValues space name = .ok .source
    · simp only [refuse, if_pos hkey] at hw
      cases hw
      exact hkey.symm
    · simp only [refuse, if_neg hkey] at hw
      cases hw
  | create space body => exact ⟨hwaits, fun _ _ => rfl, nofun⟩
  | schedule step => exact ⟨hwaits, rfl⟩
  | _ => exact answers_answer _ s

theorem isReliable_refuse (q : (requests ℚ).Request) (s : UntrustedCluster ℚ) :
    IsReliable ⟨q, (refuse q s).1⟩ := by
  cases q with
  | cacheForget space name =>
    simp only [refuse, answer]
    cases hforget : s.cache.forgetValues space name with
    | ok cache => trivial
    | error reason => exact Cache.ofValues_ne_of_forgetValues hforget
  | _ => trivial

abbrev start : Task ℚ ℚ := connect >>= fun _ => now

theorem run_start : (start.run refuse first).1 = .ok 100 := rfl

theorem run_sync :
    ((sync Operator.Example.tuning.rate {}).run refuse (start.run refuse first).2).1 =
      .error Cluster.Refusal.alreadyExists.fault := by
  with_unfolding_all rfl

/-- A reconciliation fails where a mirror cannot be created. -/
theorem exists_failedRun : ∃ run : FailedRun Operator.Example.tuning "timer",
    run.fault = Cluster.Refusal.alreadyExists.fault ∧
      run.exchanges = (reconcile Operator.Example.tuning (.text "timer")).trace refuse first := by
  have hstart := completes_trace refuse start first
  rw [run_start] at hstart
  have hsync := completes_trace refuse (sync Operator.Example.tuning.rate {})
    (start.run refuse first).2
  rw [run_sync] at hsync
  have htrace : ∃ after, (reconcile Operator.Example.tuning (.text "timer")).trace refuse first =
      start.trace refuse first ++ ((sync Operator.Example.tuning.rate {}).trace refuse
        (start.run refuse first).2 ++ after) := by
    rw [reconcile_eq, trace_bind, run_start]
    exact ⟨_, congrArg _ (trace_outcome _ _ _)⟩
  obtain ⟨after, htrace⟩ := htrace
  have hrun := completes_trace refuse (reconcile Operator.Example.tuning (.text "timer")) first
  rw [htrace] at hrun ⊢
  obtain ⟨run, hfault, -, hexchanges⟩ := FailedRun.exists_run hstart hsync hrun
  exact ⟨run, hfault, hexchanges⟩

end UntrustedCluster.Example

/-! ## What becomes of the fault and of the cache -/

namespace FailedRun

variable {τ : Type} [Time τ] {tuning : Tuning τ} {trigger : String}

/-- A write was begun and has failed, so that the API has not told what is stored now. -/
def WriteFails (run : FailedRun tuning trigger) : Prop := FailsToWrite run.conduct run.during

/-- The API has brought a secret in the synchronisation, as the answer to a read or to a write. -/
def Brings (run : FailedRun tuning trigger) (s : Secret) : Prop :=
  ∃ x ∈ run.during, Supplies x s

theorem concludes (run : FailedRun tuning trigger) :
    (conclude tuning (.text trigger) run.start (.error run.fault)).Completes run.after
      run.result := by
  have hsync : (sync tuning.rate {}).Completes run.during (.error run.fault) :=
    completes_interpret_iff.2 ⟨run.conduct, run.fails, run.carries⟩
  have hcompletes := run.completes
  rw [reconcile_eq] at hcompletes
  exact hsync.rest (run.connects.rest_bind hcompletes)

theorem traffic_exchanges (run : FailedRun tuning trigger) :
    run.exchanges.filterMap traffic = run.during.filterMap traffic ++
      run.after.filterMap traffic := by
  have hbefore : run.before.filterMap traffic = [] := by
    have hnone : NoTraffic (connect >>= fun _ => (now : Task τ τ)) :=
      behaves_bind noTraffic_connect fun _ _ _ => noTraffic_ask rfl
    rw [List.filterMap_eq_nil_iff]
    exact fun x hx => traffic_eq_none (hnone.of_follows run.connects x hx)
  rw [exchanges, List.filterMap_append, List.filterMap_append, hbefore, List.nil_append]

/-- The exchanges that deal with secrets belong to the synchronisation or come after it. -/
theorem mem_traffic_of_mem (run : FailedRun tuning trigger)
    {x : Exchange (requests τ) (Fault τ)} (hx : x ∈ run.exchanges)
    (hisTraffic : x.request.IsTraffic = true) :
    x ∈ run.during.filterMap traffic ∨ x ∈ run.after.filterMap traffic := by
  have hmem := mem_traffic hx hisTraffic
  rw [traffic_exchanges] at hmem
  exact List.mem_append.1 hmem

section

variable {run : FailedRun tuning trigger} (htrusted : ∀ x ∈ run.exchanges, IsTrusted x)

include htrusted

theorem outlined : Outlined run.conduct (run.during.filterMap traffic) := by
  have hduring : ∀ x ∈ run.during, IsTrusted x := fun x hx =>
    htrusted x (List.mem_append_right _ (List.mem_append_left _ hx))
  exact outlined_of_conducts (Sync.completes_sync_iff.1 run.fails)
    (proceeds_of_carries run.carries hduring)

theorem translation : FaultTranslation tuning.conflictDelay run.fault (run.after.filterMap traffic)
    run.result :=
  hasTraffic_conclude tuning trigger run.start run.fault _ _ run.concludes fun x hx =>
    htrusted x (List.mem_append_right _ (List.mem_append_right _ hx))

/-- Only a write that has failed and a conflict make the cache drop anything. -/
theorem drops_cases {x : Exchange (requests τ) (Fault τ)} (hx : x ∈ run.exchanges) {key : Key}
    (hdrops : x.request.Drops key) : run.WriteFails ∧ key = .target ∨
      run.fault.HasStatus 409 ∧ (key = .source ∨ key = .target) := by
  rcases run.mem_traffic_of_mem hx hdrops.isTraffic with hx | hx
  · obtain ⟨hkey, hfails⟩ := (run.outlined htrusted).drops x hx key hdrops
    exact .inl ⟨failsToWrite_traffic_iff.1 hfails, hkey⟩
  · exact .inr ((run.translation htrusted).drops x hx key hdrops)

/-- All that is put into the cache was brought by the API. -/
theorem brings_of_put {x : Exchange (requests τ) (Fault τ)} (hx : x ∈ run.exchanges) {s : Secret}
    (hput : x.request = .cachePut s) : run.Brings s := by
  have hisTraffic : x.request.IsTraffic = true := by rw [hput]; rfl
  rcases run.mem_traffic_of_mem hx hisTraffic with hx | hx
  · obtain ⟨y, hy, hsupplies⟩ := (run.outlined htrusted).supplied x hx s hput
    exact ⟨y, of_mem_traffic hy, hsupplies⟩
  · exact absurd hput ((run.translation htrusted).putsNothing x hx s)

/-- After a conflict neither secret is cached, whatever was put before. -/
theorem vacates_of_conflict (hconflict : run.fault.HasStatus 409) :
    Vacates .source run.exchanges ∧ Vacates .target run.exchanges := by
  have hlater : ∀ key, Vacates key (run.after.filterMap traffic) → Vacates key run.exchanges := by
    intro key h
    refine vacates_of_traffic ?_
    rw [traffic_exchanges]
    exact h.append_left _
  exact ((run.translation htrusted).vacates hconflict).imp (hlater _) (hlater _)

/-- After a write that was not answered the mirror is not cached. -/
theorem vacates_of_writeFails (hfails : run.WriteFails) : Vacates .target run.exchanges := by
  refine vacates_of_traffic ?_
  rw [traffic_exchanges]
  refine ((run.outlined htrusted).vacates (failsToWrite_traffic_iff.2 hfails)).append ?_
  intro x hx hput
  obtain ⟨q, a⟩ := x
  cases q with
  | cachePut s => exact (run.translation htrusted).putsNothing _ hx s rfl
  | _ => exact hput.elim

end

/-- A reconciliation that fails in its synchronisation passes the fault on as a temporary one if it
asks for a retry, and as it is otherwise.  Afterwards neither secret is cached if there was a
conflict, and the mirror is not cached if it could not be written.  Anything else that was cached is
cached still until it is too old, but for what was brought and cached in its place. -/
theorem passes_fault_on [Time.IsExact τ] (run : FailedRun tuning trigger) {s t : UntrustedCluster τ}
    (hgrants : UntrustedCluster.medium.Grants s run.exchanges t) (hfiled : s.IsFiled)
    (hreliable : ∀ x ∈ run.exchanges, IsReliable x) :
    ((∃ message, run.result =
        .error (.temporary message (some tuning.conflictDelay) (some run.fault))) ↔
      run.fault.AsksForRetry) ∧
    (¬ run.fault.AsksForRetry → run.result = .error run.fault) ∧
    (run.fault.HasStatus 409 → t.cache.find? .source = none ∧ t.cache.find? .target = none) ∧
    (run.WriteFails → t.cache.find? .target = none) ∧
    ∀ key, (run.fault.HasStatus 409 → key ≠ .source ∧ key ≠ .target) →
      (run.WriteFails → key ≠ .target) → s.KeepsUnlessExpired run.Brings key t := by
  have htrusted : ∀ x ∈ run.exchanges, IsTrusted x := fun x hx =>
    ⟨hreliable x hx, (UntrustedCluster.isHonest_of_grants hgrants hfiled).1 x hx⟩
  have htranslation := run.translation htrusted
  refine ⟨⟨fun ⟨message, hresult⟩ => ?_, htranslation.delayed⟩, htranslation.same,
    fun hconflict => ?_, fun hfails => ?_, fun key hconflict hfails => ?_⟩
  · by_contra hasks
    have hsame : run.fault = .temporary message (some tuning.conflictDelay) (some run.fault) :=
      Except.error.inj ((htranslation.same hasks).symm.trans hresult)
    exact run.fault.ne_temporary_self _ _ hsame
  · obtain ⟨hsource, htarget⟩ := run.vacates_of_conflict htrusted hconflict
    exact ⟨UntrustedCluster.find?_of_vacates hgrants hsource,
      UntrustedCluster.find?_of_vacates hgrants htarget⟩
  · exact UntrustedCluster.find?_of_vacates hgrants (run.vacates_of_writeFails htrusted hfails)
  · refine UntrustedCluster.keepsUnlessExpired_of_grants hgrants (fun x hx hdrops => ?_)
      fun x hx secret hput => run.brings_of_put htrusted hx hput
    rcases run.drops_cases htrusted hx hdrops with ⟨hfailed, hkey⟩ | ⟨hstatus, hkey⟩
    · exact hfails hfailed hkey
    · exact hkey.elim (hconflict hstatus).1 (hconflict hstatus).2

open UntrustedCluster.Example in
/-- Where a mirror cannot be created since there is one already, an early retry is asked for, and
neither secret stays in the cache. -/
theorem passes_conflict_on :
    ∃ (run : FailedRun Operator.Example.tuning "timer") (t : UntrustedCluster ℚ),
    UntrustedCluster.medium.Grants first run.exchanges t ∧ first.IsFiled ∧
      (∀ x ∈ run.exchanges, IsReliable x) ∧ run.fault.HasStatus 409 ∧
        (∃ message, run.result = .error (.temporary message (some 5) (some run.fault))) ∧
          t.cache.find? .source = none ∧ t.cache.find? .target = none := by
  obtain ⟨run, hfault, hexchanges⟩ := exists_failedRun
  have hgrants := UntrustedCluster.medium.grants_trace answers_refuse
    (reconcile Operator.Example.tuning (.text "timer")) first
  have hreliable := forall_mem_trace isReliable_refuse
    (reconcile Operator.Example.tuning (.text "timer")) first
  rw [← hexchanges] at hgrants hreliable
  have hfiled : first.IsFiled := fun _ _ he => nomatch he
  have hconflict : run.fault.HasStatus 409 := by
    rw [hfault]
    rfl
  obtain ⟨htemporary, -, hvacant, -⟩ := run.passes_fault_on hgrants hfiled hreliable
  exact ⟨run, _, hgrants, hfiled, hreliable, hconflict, htemporary.2 (.inl hconflict),
    hvacant hconflict⟩

end FailedRun

end SecretMirror
