import SecretMirror.Proofs.FailureReports
import SecretMirror.Proofs.Counters
import SecretMirror.Proofs.SyncNotes

/-!
# The metrics agree

Reconciliations are counted by their result and timed, errors are counted by their class, and writes
by their outcome, each in a place of its own.  What was counted together belongs together
(`Balances`): this holds of whatever a reconciliation may count on its way (`Tells.balances`), and
it is kept when one record follows another (`Balances.append`).  Therefore it holds after any number
of reconciliations, for whatever reasons, whatever the API, the cache and the clock have answered
(`balances_flatMap`).

If readings are exact, it is what the metrics show (`Agrees`, `metrics_agree`).
-/

namespace SecretMirror.Operator

open Metrics
open Program hiding bind ask

variable {τ : Type}

/-! ## What is counted together -/

/-- The result under which a reconciliation that has written is counted. -/
def Operation.result : Operation → String
  | .create => "created"
  | .update => "updated"

/-- The reason for which the event about a write is emitted. -/
def Operation.reason : Operation → String
  | .create => Names.createdReason
  | .update => Names.updatedReason

def Event.isFor (reason : String) (event : Event) : Bool := event.reason.text? == some reason

/-- The labels of a reconciliation for a reason, which is the first label. -/
def hasTrigger (trigger : String) (labels : List String) : Bool := labels[0]? == some trigger

/-- The labels of a reconciliation with a result, which is the second label. -/
def hasResult (result : String) (labels : List String) : Bool := labels[1]? == some result

/-- What was counted belongs together, and was counted one by one.  This is about the record itself,
so nothing is added up and no rounding comes in. -/
structure Balances [Time τ] (record : List (Update τ)) (posted : List Event) : Prop where
  /-- Every reconciliation is timed. -/
  timed : ∀ trigger, record.countP (Update.isAbout .reconciliations (hasTrigger trigger)) =
    observations record (.reconciliationTime trigger)
  /-- Every failed reconciliation comes with an error. -/
  failed : record.countP (Update.isAbout .reconciliations (hasResult "error")) =
    record.countP (Update.isAbout .errors fun _ => true)
  /-- Every reconciliation that has written comes with a write that has succeeded. -/
  written : ∀ operation : Operation,
    record.countP (Update.isAbout .reconciliations (hasResult operation.result)) =
      record.countP fun u => u.series = .writes operation.name "success"
  /-- Every write that has succeeded is emitted. -/
  emitted : ∀ operation : Operation,
    (record.countP fun u => u.series = .writes operation.name "success") =
      posted.countP (Event.isFor operation.reason)
  single : ∀ u ∈ record, isCount u = true → u = .add u.series 1

section Balances

variable [Time τ] {record record' : List (Update τ)} {posted posted' : List Event}

theorem balances_nil : Balances (τ := τ) [] [] where
  timed _ := rfl
  failed := rfl
  written _ := rfl
  emitted _ := rfl
  single := nofun

/-- One record may follow another. -/
theorem Balances.append (h : Balances record posted) (h' : Balances record' posted') :
    Balances (record ++ record') (posted ++ posted') where
  timed trigger := by
    rw [List.countP_append, h.timed, h'.timed, observations_eq_countP, observations_eq_countP,
      observations_eq_countP, List.countP_append]
  failed := by
    rw [List.countP_append, List.countP_append, h.failed, h'.failed]
  written operation := by
    rw [List.countP_append, List.countP_append, h.written, h'.written]
  emitted operation := by
    rw [List.countP_append, List.countP_append, h.emitted, h'.emitted]
  single u hu := by
    rcases List.mem_append.1 hu with hu | hu
    · exact h.single u hu
    · exact h'.single u hu

theorem balances_failed (trigger typeName : String) (time : τ) :
    Balances [.add (.reconciliations trigger "error") 1, .add (.errors typeName) 1,
      .add (.reconciliationTime trigger) time] [] where
  timed t := by
    by_cases h : trigger = t <;>
      simp [h, observations, amounts, Update.amountFor?, Update.isAbout, Update.series, hasTrigger,
        Series.reconciliations, Series.errors, Series.reconciliationTime]
  failed := rfl
  written operation := by cases operation <;> rfl
  emitted operation := by cases operation <;> rfl
  single u hu hcount := by
    simp only [List.mem_cons, List.not_mem_nil, or_false] at hu
    rcases hu with rfl | rfl | rfl
    · rfl
    · rfl
    · cases hcount

theorem balances_finished (trigger : String) (decision : Decision) (time : τ) :
    Balances (decision.operation?.toList.map (fun o => .add (.writes o.name "success") 1) ++
      [.add (.reconciliationTime trigger) time,
        .add (.reconciliations trigger (resultName decision.action)) 1])
      decision.events where
  timed t := by
    cases decision <;> by_cases h : trigger = t <;>
      simp [h, observations, amounts, Update.amountFor?, Update.isAbout, Update.series, hasTrigger,
        Series.reconciliations, Series.writes, Series.reconciliationTime, Decision.operation?]
  failed := by cases decision <;> rfl
  written operation := by cases decision <;> cases operation <;> rfl
  emitted operation := by cases decision <;> cases operation <;> rfl
  single u hu hcount := by
    -- The time is no count, and everything else is a one.
    rcases List.mem_append.1 hu with hu | hu
    · obtain ⟨o, -, rfl⟩ := List.mem_map.1 hu
      rfl
    · simp only [List.mem_cons, List.not_mem_nil, or_false] at hu
      rcases hu with rfl | rfl
      · cases hcount
      · rfl

/-- Whatever a reconciliation may count on its way balances. -/
theorem Tells.balances {trigger : String} {notes : List (Note τ)} (h : Tells trigger notes) :
    Balances (notes.filterMap Note.update?) (notes.filterMap Note.event?) := by
  cases h with
  | nothing => exact balances_nil
  | failed typeName time => exact balances_failed trigger typeName time
  | finished decision time =>
    cases decision with
    | noOp why => exact balances_finished trigger (.noOp why) time
    | create secret => exact balances_finished trigger (.create secret) time
    | update secret => exact balances_finished trigger (.update secret) time

/-! ## Only what is told matters -/

omit [Time τ] in
theorem isCount_of_isAbout {u : Update τ} {m : Metric} {wanted : List String → Bool}
    (hm : m = .reconciliations ∨ m = .errors) (h : u.isAbout m wanted = true) :
    isCount u = true := by
  rw [Update.isAbout, Bool.and_eq_true, decide_eq_true_eq] at h
  obtain ⟨metric, labels, hseries⟩ : ∃ metric labels, u.series = ⟨metric, labels⟩ := ⟨_, _, rfl⟩
  rw [hseries] at h
  obtain ⟨rfl, -⟩ := h
  rw [isCount, hseries]
  rcases hm with rfl | rfl
  · rfl
  · rfl

omit [Time τ] in
theorem isCount_of_write {u : Update τ} {operation : Operation}
    (h : u.series = .writes operation.name "success") : isCount u = true := by
  rw [isCount, h]
  rfl

/-- What is told of a record, leaving out the calls and their times. -/
def toldOf (record : List (Update τ)) : List (Update τ) :=
  record.filter fun u => Note.isTold (.measured u)

omit [Time τ] in
theorem countP_toldOf {p : Update τ → Bool}
    (h : ∀ u, p u = true → Note.isTold (.measured u) = true) (record : List (Update τ)) :
    (toldOf record).countP p = record.countP p := by
  rw [toldOf, List.countP_filter]
  refine List.countP_congr fun u _ => ?_
  rw [Bool.and_eq_true]
  exact ⟨fun hu => hu.1, fun hu => ⟨hu, h u hu⟩⟩

theorem Balances.of_told (h : Balances (toldOf record) posted) : Balances record posted := by
  -- Each of the counts that are compared passes over what is not told.
  have hcount : ∀ {u : Update τ}, isCount u = true → Note.isTold (.measured u) = true := by
    intro u hu
    rw [Note.isTold, hu, Bool.true_or]
  have hresult : ∀ wanted, (toldOf record).countP (Update.isAbout .reconciliations wanted) =
      record.countP (Update.isAbout .reconciliations wanted) := fun wanted =>
    countP_toldOf (fun u hu => hcount (isCount_of_isAbout (.inl rfl) hu)) record
  have herror : (toldOf record).countP (Update.isAbout .errors fun _ => true) =
      record.countP (Update.isAbout .errors fun _ => true) :=
    countP_toldOf (fun u hu => hcount (isCount_of_isAbout (.inr rfl) hu)) record
  have hwrite : ∀ operation : Operation,
      ((toldOf record).countP fun u => u.series = .writes operation.name "success") =
        record.countP fun u => u.series = .writes operation.name "success" := fun operation =>
    countP_toldOf (fun u hu => hcount (isCount_of_write (of_decide_eq_true hu))) record
  have htime : ∀ trigger, observations (toldOf record) (.reconciliationTime trigger) =
      observations record (.reconciliationTime trigger) := by
    intro trigger
    rw [observations_eq_countP, observations_eq_countP]
    refine countP_toldOf (fun u hu => ?_) record
    rw [Note.isTold, series_of_amountFor? hu]
    exact Bool.or_true _
  exact {
    timed := fun trigger => by rw [← hresult, h.timed, htime]
    failed := by rw [← hresult, h.failed, herror]
    written := fun operation => by rw [← hresult, h.written, hwrite]
    emitted := fun operation => by rw [← hwrite, h.emitted]
    single := fun u hu hone => h.single u (List.mem_filter.2 ⟨hu, hcount hone⟩) hone }

end Balances

/-! ## Sequences of reconciliations -/

/-- A reconciliation that was gone through: what was asked for and answered on the way, and what it
came to. -/
structure Pass (τ : Type) [Time τ] where
  tuning : Tuning τ
  /-- The reason for it. -/
  trigger : String
  exchanges : List (Exchange (requests τ) (Fault τ))
  result : Except (Fault τ) Decision
  completes : (reconcile tuning (.text trigger)).Completes exchanges result

/-- The changes of the metrics in a sequence of reconciliations. -/
def recordOf [Time τ] (passes : List (Pass τ)) : List (Update τ) :=
  passes.flatMap fun pass => updates pass.exchanges

/-- The events that were emitted in a sequence of reconciliations. -/
def postedBy [Time τ] (passes : List (Pass τ)) : List Event :=
  passes.flatMap fun pass => events pass.exchanges

section Passes

variable [Time τ]

/-- One reconciliation balances. -/
theorem Pass.balances (pass : Pass τ) (hbenign : ∀ x ∈ pass.exchanges, IsBenign x) :
    Balances (updates pass.exchanges) (events pass.exchanges) := by
  have htells := enters_told pass.tuning pass.trigger _ _ pass.completes hbenign
  have hevents : events pass.exchanges =
      (pass.exchanges.filterMap told).filterMap Note.event? := by
    refine filterMap_note? (fun note hnote => ?_) _
    cases note with
    | emitted event => cases hnote
    | _ => rfl
  refine Balances.of_told ?_
  rw [toldOf, filter_updates, hevents]
  exact htells.balances

/-- Any number of reconciliations balance. -/
theorem balances_flatMap {passes : List (Pass τ)}
    (hbenign : ∀ pass ∈ passes, ∀ x ∈ pass.exchanges, IsBenign x) :
    Balances (recordOf passes) (postedBy passes) := by
  induction passes with
  | nil => exact balances_nil
  | cons pass passes ih =>
    obtain ⟨hfirst, hlater⟩ := List.forall_mem_cons.1 hbenign
    exact (pass.balances hfirst).append (ih hlater)

end Passes

/-! ## What the metrics show -/

variable {K : Type} [Field K] [LinearOrder K]

/-- What the metrics show agrees with itself and with the events that were emitted.  The sums are
over all series that are known, as somebody who reads the metrics would add them up. -/
structure Agrees (record : List (Update K)) (posted : List Event) : Prop where
  /-- For each reason, as many reconciliations are counted as are timed. -/
  timed : ∀ trigger, sumOver record .reconciliations (hasTrigger trigger) =
    (observations record (.reconciliationTime trigger) : K)
  /-- As many reconciliations have failed as there are errors. -/
  failed : sumOver record .reconciliations (hasResult "error") =
    sumOver record .errors fun _ => true
  /-- As many mirrors were created, or updated, as such writes have succeeded. -/
  written : ∀ operation : Operation,
    sumOver record .reconciliations (hasResult operation.result) =
      total record (.writes operation.name "success")
  /-- As many such writes have succeeded as were emitted. -/
  emitted : ∀ operation : Operation, total record (.writes operation.name "success") =
    (posted.countP (Event.isFor operation.reason) : K)

/-- What balances is shown to agree. -/
theorem Balances.agrees {record : List (Update K)} {posted : List Event}
    (h : Balances record posted) : Agrees record posted := by
  have hsum : ∀ {m : Metric}, m = .reconciliations ∨ m = .errors → ∀ wanted,
      sumOver record m wanted = (record.countP (Update.isAbout m wanted) : K) := by
    refine fun {m} hm wanted => sumOver_eq_countP (fun u hu hmetric => h.single u hu ?_) wanted
    have habout : Update.isAbout m (fun _ => true) u = true := by
      rw [Update.isAbout, hmetric, decide_eq_true rfl]
      rfl
    exact isCount_of_isAbout hm habout
  have htotal : ∀ operation : Operation, total record (.writes operation.name "success") =
      ((record.countP fun u => u.series = .writes operation.name "success" : ℕ) : K) := by
    refine fun operation => total_eq_countP fun u hu hseries => ?_
    rw [← hseries]
    exact h.single u hu (isCount_of_write hseries)
  refine ⟨fun trigger => ?_, ?_, fun operation => ?_, fun operation => ?_⟩
  · rw [hsum (.inl rfl), h.timed]
  · rw [hsum (.inl rfl), hsum (.inr rfl), h.failed]
  · rw [hsum (.inl rfl), htotal, h.written]
  · rw [htotal, h.emitted]

/-- Whatever was reconciled, for whatever reasons, and whatever has failed, the metrics agree.  As
many reconciliations are counted as are timed, as many failures as errors, and as many results of
either kind of write as successful writes and events. -/
theorem metrics_agree {passes : List (Pass K)}
    (hbenign : ∀ pass ∈ passes, ∀ x ∈ pass.exchanges, IsBenign x) :
    Agrees (recordOf passes) (postedBy passes) :=
  (balances_flatMap hbenign).agrees

/-! ## In a cluster -/

section Cluster

open Cluster

variable [Time τ] (timing : Resync.Timing τ) (tuning : Tuning τ)

/-- Reconciliations for these reasons, one after the other in a cluster. -/
def passesIn : List String → Cluster τ → List (Pass τ)
  | [], _ => []
  | trigger :: later, c =>
    let reconciled := (reconcile tuning (.text trigger)).run (handle timing) c
    { tuning := tuning
      trigger := trigger
      exchanges := (reconcile tuning (.text trigger)).trace (handle timing) c
      result := reconciled.1
      completes := completes_trace _ _ c } :: passesIn later reconciled.2

theorem isReliable_of_mem_passesIn (triggers : List String) (c : Cluster τ) :
    ∀ pass ∈ passesIn timing tuning triggers c, ∀ x ∈ pass.exchanges, IsReliable x := by
  induction triggers generalizing c with
  | nil => exact fun _ hpass => absurd hpass List.not_mem_nil
  | cons trigger later ih =>
    exact List.forall_mem_cons.2 ⟨isReliable_of_mem_trace timing _ c, ih _⟩

/-- The cluster after reconciliations for these reasons. -/
def reconcileAll (triggers : List String) (c : Cluster τ) : Cluster τ :=
  triggers.foldl (fun c trigger => ((reconcile tuning (.text trigger)).run (handle timing) c).2) c

/-- The record of the reconciliations is what the metrics and the events of the cluster grow by. -/
theorem adds_reconcileAll (triggers : List String) (c : Cluster τ) :
    (reconcileAll timing tuning triggers c).metrics =
        c.metrics ++ recordOf (passesIn timing tuning triggers c) ∧
      (reconcileAll timing tuning triggers c).record.events =
        c.record.events ++ postedBy (passesIn timing tuning triggers c) := by
  induction triggers generalizing c with
  | nil => exact ⟨(List.append_nil _).symm, (List.append_nil _).symm⟩
  | cons trigger later ih =>
    have hadds := adds_run timing (reconcile tuning (.text trigger)) c
    obtain ⟨hmetrics, hevents⟩ := ih ((reconcile tuning (.text trigger)).run (handle timing) c).2
    refine ⟨hmetrics.trans ?_, hevents.trans ?_⟩
    · rw [hadds.metrics, List.append_assoc]
      rfl
    · rw [hadds.events, List.append_assoc]
      rfl

end Cluster

/-- A cluster in which the first write finds the server unavailable. -/
def Example.interrupted : Cluster ℚ :=
  { Cluster.withoutMirror with
    disturbances := fun
      | .create => some { fault := .api (.int 503) (.text "Unavailable") .null, times := some 1 }
      | _ => none }

/-- A mirror is created by the second of two reconciliations, since the first has failed.  What the
metrics show agrees, and agrees with the event. -/
theorem metrics_agree_interrupted :
    let d := reconcileAll ⟨300, 30⟩ Example.tuning ["event", "retry"] Example.interrupted
    Agrees d.metrics d.record.events ∧
      sumOver d.metrics .reconciliations (hasResult "error") = 1 ∧
      total d.metrics (.writes "create" "success") = 1 := by
  have hsmooth : ∀ pass ∈ passesIn ⟨300, 30⟩ Example.tuning ["event", "retry"]
      Example.interrupted, ∀ x ∈ pass.exchanges, IsSmooth x := by
    decide +kernel
  have hreliable := isReliable_of_mem_passesIn ⟨300, 30⟩ Example.tuning ["event", "retry"]
    Example.interrupted
  obtain ⟨hmetrics, hevents⟩ := adds_reconcileAll ⟨300, 30⟩ Example.tuning ["event", "retry"]
    Example.interrupted
  have hagrees := metrics_agree fun pass hpass x hx =>
    ⟨hreliable pass hpass x hx, hsmooth pass hpass x hx⟩
  refine ⟨?_, by decide +kernel, by decide +kernel⟩
  rw [hmetrics, hevents]
  exact hagrees

end SecretMirror.Operator
